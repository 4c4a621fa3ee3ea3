import StatementEngine.Engine.Runs
import StatementEngine.Proofs.Scope.Lookup

/-!
# Compound assignments to elements

**A compound assignment to an element evaluates the key twice.** The element is read under the key
that the first evaluation yields. The key is evaluated once more to write the result, and the element
of the second key is the one that changes (`compound_element_update`). As long as the second
evaluation yields the same key and leaves the container as it was, the element at that key becomes
the old one combined with the operand. A key that counts makes the difference
(`not_single_element_update`).
-/

namespace StatementEngine

/-! ## Elements of containers -/

namespace Value

theorem index?_eq_some_iff {items : List Value} {n : Int64} {v : Value} :
    index? items n = some v ↔ 0 ≤ n.toInt ∧ items[n.toInt.toNat]? = some v := by
  have negative : n < 0 ↔ ¬ 0 ≤ n.toInt := by
    rw [Int64.lt_iff_toInt_lt, Int64.toInt_zero]
    omega
  unfold index?
  simp only [negative]
  split
  · next h => simp only [h, false_and, reduceCtorEq]
  · next h => simp only [Decidable.not_not.mp h, true_and]

/-- A list with one element changed has that element under its index and no other. -/
theorem index?_set {items : List Value} {n : Int64} (there : (index? items n).isSome) (v : Value)
    (m : Int64) : index? (items.set n.toInt.toNat v) m = if m = n then some v else index? items m := by
  obtain ⟨w, known⟩ := Option.isSome_iff_exists.mp there
  obtain ⟨positive, known⟩ := index?_eq_some_iff.mp known
  have inside : n.toInt.toNat < items.length := (List.getElem?_eq_some_iff.mp known).1
  refine Option.ext fun u => ?_
  rw [index?_eq_some_iff, List.getElem?_set]
  by_cases same : m = n
  · subst same
    simp only [positive, inside, if_true, true_and]
  · have apart : m.toInt ≠ n.toInt := fun h => same (Int64.toInt_inj.mp h)
    rw [if_neg same, index?_eq_some_iff]
    refine and_congr_right fun positive' => ?_
    rw [if_neg (by omega)]

/-- A container with one element changed has that element under its key, and under any other key what
it had before. -/
theorem element_withElement {container key v changed : Value}
    (h : container.withElement key v = .ok changed) :
    changed.element key = .ok v ∧
      ∀ other, other ≠ key → changed.element other = container.element other := by
  unfold withElement at h
  split at h
  · next entries k =>
    cases h
    refine ⟨?_, fun other apart => ?_⟩
    · simp only [element, Dictionary.find?_insert, if_true, Option.getD_some]
    cases other with
    | str name =>
        have apart : name ≠ k := fun same => apart (same ▸ rfl)
        simp only [element, Dictionary.find?_insert, if_neg apart]
    | nil | bool | int | float | list | map | function => rfl
  · next items n =>
    split at h
    · next there =>
      cases h
      refine ⟨?_, fun other apart => ?_⟩
      · simp only [element, index?_set there, if_true, Option.getD_some]
      cases other with
      | int m =>
          have apart : m ≠ n := fun same => apart (same ▸ rfl)
          simp only [element, index?_set there, if_neg apart]
      | nil | bool | str | float | list | map | function => rfl
    · cases h
  · cases h

end Value

/-! ## Runs of the parts -/

variable {config : Config} {scope : ScopeId} {x : Name} {k e : Expr} {s t : State}

/-- An element of a variable is read before the key is evaluated. -/
theorem runs_element_ok_iff {v : Value} :
    Runs config (Exec.evaluate (.index (.variable x) k) scope) s (.ok v) t ↔
      ∃ container key, s.scopes.get? scope x = some container ∧
        Runs config (Exec.evaluate k scope) s (.ok key) t ∧ container.element key = .ok v := by
  rw [runs_evaluate_iff]
  simp only [Exec.evaluateBody, runs_bind_ok_iff, runs_evaluate_iff (e := .variable x),
    runs_mapError_ok_iff, runs_readVariable_ok_iff, runs_ofExcept_ok_iff]
  constructor
  · rintro ⟨container, _, ⟨known, rfl⟩, key, _, evaluated, element, rfl⟩
    exact ⟨container, key, known, evaluated, element⟩
  · rintro ⟨container, key, known, evaluated, element⟩
    exact ⟨container, s, ⟨known, rfl⟩, key, t, evaluated, element, rfl⟩

/-- An element of a variable is written after the key has been evaluated, into the container that the
variable holds by then. -/
theorem runs_assignElement_ok_iff {v : Value} :
    Runs config (Exec.assignPlace (.index (.variable x) k) v scope) s (.ok ()) t ↔
      ∃ key u container changed scopes, Runs config (Exec.evaluate k scope) s (.ok key) u ∧
        u.scopes.get? scope x = some container ∧ container.withElement key v = .ok changed ∧
        u.scopes.set? scope x changed = some scopes ∧ t = { u with scopes } := by
  simp only [Exec.assignPlace, runs_bind_ok_iff, runs_mapError_ok_iff, runs_readVariable_ok_iff,
    runs_ofExcept_ok_iff, runs_setVariable_ok_iff]
  constructor
  · rintro ⟨key, u, evaluated, container, _, ⟨known, rfl⟩, changed, _, ⟨written, rfl⟩, scopes,
      stored, rfl⟩
    exact ⟨key, _, container, changed, scopes, evaluated, known, written, stored, rfl⟩
  · rintro ⟨key, u, container, changed, scopes, evaluated, known, written, stored, rfl⟩
    exact ⟨key, u, evaluated, container, u, ⟨known, rfl⟩, changed, u, ⟨written, rfl⟩, scopes,
      stored, rfl⟩

/-! ## The statement -/

variable {p q : Position} {op : AssignOp} {cx : Context} {c : Completion}

/-- A statement with a normal end is not one that has thrown. -/
theorem runs_located_normal {y : Exec Raise Completion} (normal : c.isNormal = true)
    (run : Runs config (Exec.located p y) s (.ok c) t) : Runs config y s (.ok c) t := by
  rcases runs_located_ok_iff.mp run with run | ⟨v, at?, -, rfl⟩
  · exact run
  · cases normal

/-- With one target and one value, the value is evaluated and assigned. -/
theorem runs_assignSingle_ok_iff {target : Target} :
    Runs config (Exec.runAssign p [target] op [e] scope) s (.ok c) t ↔
      ∃ operand u written, Runs config (Exec.evaluate e scope) s (.ok operand) u ∧
        Runs config (Exec.assignOne p op target operand scope) u (.ok written) t ∧
        c = .ofValue written := by
  simp only [Exec.runAssign, Exec.evaluateAll, bind_assoc, pure_bind, List.length_singleton]
  rw [runs_bind_ok_iff]
  refine exists_congr fun operand => exists_congr fun u => ?_
  have pairs : Exec.ofExcept Raise.ofKind (assigned 1 [operand])
      = (pure [operand] : Exec Raise (List Value)) := rfl
  rw [pairs, pure_bind]
  simp only [List.zip_cons_cons, List.zip_nil_right, Exec.assignEach, bind_pure, runs_bind_ok_iff,
    runs_pure_iff, Outcome.ok.injEq]
  constructor
  · rintro ⟨evaluated, written, _, run, rfl, rfl⟩
    exact ⟨written, evaluated, run, rfl⟩
  · rintro ⟨written, evaluated, run, rfl⟩
    exact ⟨evaluated, written, t, run, rfl, rfl⟩

/-- A compound assignment reads its target, combines what it has read with the operand and writes the
result. -/
theorem runs_assignCompound_ok_iff (compound : op.isCompound = true) {target : Target}
    {operand new : Value} :
    Runs config (Exec.assignOne p op target operand scope) s (.ok new) t ↔
      ∃ old u, Runs config (Exec.readTarget target scope) s (.ok old) u ∧
        op.apply old operand = .ok new ∧
        Runs config (Exec.writeTarget target new scope) u (.ok ()) t := by
  rw [Exec.assignOne, if_pos compound]
  simp only [runs_bind_ok_iff, runs_ofExcept_ok_iff, runs_pure_iff, Outcome.ok.injEq]
  constructor
  · rintro ⟨old, u, read, _, _, ⟨applied, rfl⟩, _, _, write, rfl, rfl⟩
    exact ⟨old, _, read, applied, write⟩
  · rintro ⟨old, u, read, applied, write⟩
    exact ⟨old, u, read, new, u, ⟨applied, rfl⟩, (), t, write, rfl, rfl⟩

/-- **A compound assignment to an element reads under one key and writes under another.** When it ends
normally, the operand has been evaluated first and the container read. The key has then been
evaluated twice, each time with all its effects: the element at the first key is combined with the
operand, and the result becomes the element at the second key, in the container that the variable
holds after the second evaluation. No other element of that container changes. -/
theorem compound_element_update (compound : op.isCompound = true) (normal : c.isNormal = true)
    (run : Runs config (Exec.execute
      ⟨p, .assign [.place q (.index (.variable x) k)] op [e]⟩ scope cx) s (.ok c) t) :
    ∃ operand s₁ before key s₂ old new again s₃ after updated scopes,
      Runs config (Exec.evaluate e scope) s (.ok operand) s₁ ∧
      s₁.scopes.get? scope x = some before ∧
      Runs config (Exec.evaluate k scope) s₁ (.ok key) s₂ ∧
      before.element key = .ok old ∧ op.apply old operand = .ok new ∧ c = .ofValue new ∧
      Runs config (Exec.evaluate k scope) s₂ (.ok again) s₃ ∧
      s₃.scopes.get? scope x = some after ∧
      s₃.scopes.set? scope x updated = some scopes ∧ t = { s₃ with scopes } ∧
      t.scopes.get? scope x = some updated ∧ updated.element again = .ok new ∧
      ∀ other, other ≠ again → updated.element other = after.element other := by
  obtain ⟨operand, s₁, new, evaluated, one, rfl⟩ := runs_assignSingle_ok_iff.mp
    (runs_located_normal normal (runs_execute_iff.mp run))
  obtain ⟨old, s₂, read, applied, write⟩ := (runs_assignCompound_ok_iff compound).mp one
  obtain ⟨before, key, known, evaluated', element⟩ :=
    runs_element_ok_iff.mp (runs_mapError_ok_iff.mp read)
  obtain ⟨again, s₃, after, updated, scopes, evaluated'', known', changed, stored, rfl⟩ :=
    runs_assignElement_ok_iff.mp (runs_mapError_ok_iff.mp write)
  obtain ⟨self, others⟩ := Value.element_withElement changed
  exact ⟨operand, s₁, before, key, s₂, old, new, again, s₃, after, updated, scopes, evaluated,
    known, evaluated', element, applied, rfl, evaluated'', known', stored, rfl,
    ScopeStore.get?_set?_of_same stored rfl, self, others⟩

/-! ## Keys that count -/

/-- A list and a counter. -/
def countedList : State :=
  { State.initial .deferred .log with
    scopes := ((ScopeStore.empty.add none).define ⟨0⟩ "xs"
      (.list [.int 10, .int 20, .int 30])).define ⟨0⟩ "i" (.int 0) }

/-- Adds five to the element of the list under a key. -/
def addFiveAt (key : Expr) : Stmt :=
  ⟨⟨2, 1⟩, .assign [.place ⟨2, 1⟩ (.index (.variable "xs") key)] .add [.literal (.int 5)]⟩

/-- Counts, and yields what the counter has come to. -/
def countingKey : Expr := .set "i" (.binary .add (.variable "i") (.literal (.int 1)))

/-- With a key that is the same each time, the element at that key is combined with the operand. -/
theorem compound_element_update_literal :
    AssignOp.add.isCompound = true ∧ (Completion.ofValue (.int 25)).isNormal = true ∧
      ∃ t updated, Runs .standard (Exec.execute (addFiveAt (.literal (.int 1))) ⟨0⟩ .function)
          countedList (.ok (.ofValue (.int 25))) t ∧
        t.scopes.get? ⟨0⟩ "xs" = some updated ∧ updated.element (.int 1) = .ok (.int 25) := by
  obtain ⟨t, run⟩ : ∃ t, Runs .standard (Exec.execute (addFiveAt (.literal (.int 1))) ⟨0⟩ .function)
      countedList (.ok (.ofValue (.int 25))) t := ⟨_, runs_iff_run.mpr ⟨40, rfl⟩⟩
  obtain ⟨_, _, _, _, _, _, new, again, _, _, updated, _, _, _, _, _, _, same, evaluated, _, _, _,
    known, self, _⟩ := compound_element_update (by decide) rfl run
  cases same
  obtain ⟨yields, -⟩ := runs_pure_iff.mp (runs_evaluate_iff.mp evaluated)
  cases yields
  exact ⟨rfl, rfl, t, updated, run, known, self⟩

/-- With a key that counts, the element at 1 is read and the one at 2 is written. Nothing in the list
has become what it was combined with the operand, and the key has counted twice. -/
theorem not_single_element_update :
    ∃ t, Runs .standard (Exec.execute (addFiveAt countingKey) ⟨0⟩ .function) countedList
        (.ok (.ofValue (.int 25))) t ∧
      t.scopes.get? ⟨0⟩ "xs" = some (.list [.int 10, .int 20, .int 25]) ∧
      t.scopes.get? ⟨0⟩ "i" = some (.int 2) ∧
      ∀ key old new, (Value.list [.int 10, .int 20, .int 30]).element key = .ok old →
        AssignOp.add.apply old (.int 5) = .ok new →
        (Value.list [.int 10, .int 20, .int 25]).element key ≠ .ok new := by
  refine ⟨_, runs_iff_run.mpr ⟨40, rfl⟩, rfl, rfl, fun key old new was combined is => ?_⟩
  cases key with
  | int n =>
      simp only [Value.element, Value.index?] at was is
      split at was
      · -- outside of the list there is nothing to combine
        cases was
        cases combined
      · next inside =>
        rw [if_neg inside] at is
        match n.toInt.toNat, was, is with
        | 0, was, is => cases was; cases combined; cases is
        | 1, was, is => cases was; cases combined; cases is
        | 2, was, is => cases was; cases combined; cases is
        | _ + 3, was, is => cases was; cases combined
  | nil | bool | str | float | list | map | function => cases was

end StatementEngine
