import StatementEngine.Proofs.Assignment.InTurn

/-!
# Assignments to elements

**An element is assigned as if the container were copied, changed and put back.** A map has a place
for an element under every string and a list under every index of it; under any other key the
assignment fails and nothing is written (`Value.Takes`). Where there is a place, the element under
the key becomes the value, all other elements stay, and so do the indices of a list and all but one
of the keys of a map (`Value.Replaces`). The only binding that changes is the nearest one of the
variable: whoever has got the container in another way, as the value of another variable, as an
argument or as a result, still has it as it was (`ElementSet`).

Assignments under different keys may come in any order, and of two under the same key the second one
counts. The main result is `element_assignment`.
-/

namespace StatementEngine

/-! ## Containers -/

namespace Value

variable {c q r v w changed : Value}

/-- The container has a place for an element under the key. -/
inductive Takes : Value → Value → Prop
  | entry (entries : Dictionary Value none) (k : String) : Takes (map entries) (str k)
  | item {items : List Value} {n : Int64} (lower : 0 ≤ n.toInt) (upper : n.toInt < items.length) :
      Takes (list items) (int n)

/-- The second container is the first one with the value under the key. -/
structure Replaces (c q v changed : Value) : Prop where
  reads : changed.element q = .ok v
  others : ∀ r, r ≠ q → changed.element r = c.element r
  length : ∀ items, c = list items → ∃ items', changed = list items' ∧
    items'.length = items.length
  keys : ∀ entries, c = map entries → ∃ entries', changed = map entries' ∧
    ∀ k, k ∈ entries'.keys ↔ str k = q ∨ k ∈ entries.keys

theorem index?_isSome_iff {items : List Value} {n : Int64} :
    (index? items n).isSome ↔ 0 ≤ n.toInt ∧ n.toInt < items.length := by
  simp only [Option.isSome_iff_exists, index?_eq_some_iff, exists_and_left]
  refine and_congr_right fun lower => ?_
  rw [← Option.isSome_iff_exists, isSome_getElem?, Int.toNat_lt lower]

/-- A container with a place for the element is changed there. -/
theorem Takes.exists_replaces (takes : c.Takes q) (v : Value) :
    ∃ changed, c.withElement q v = .ok changed ∧ c.Replaces q v changed := by
  cases takes with
  | entry entries k =>
      have changed : (map entries).withElement (str k) v
          = .ok (map (entries.insert k v above_none)) := rfl
      obtain ⟨self, others⟩ := element_withElement changed
      refine ⟨_, changed, self, others, by simp, ?_⟩
      rintro _ ⟨⟩
      exact ⟨_, rfl, fun l => by rw [Dictionary.mem_keys_insert, str.injEq]⟩
  | @item items n lower upper =>
      have there := index?_isSome_iff.mpr ⟨lower, upper⟩
      have changed : (list items).withElement (int n) v = .ok (list (items.set n.toInt.toNat v)) :=
        if_pos there
      obtain ⟨self, others⟩ := element_withElement changed
      refine ⟨_, changed, self, others, ?_, by simp⟩
      rintro _ ⟨⟩
      exact ⟨_, rfl, List.length_set⟩

/-- Only a container with a place for the element can be changed. -/
theorem takes_of_withElement (h : c.withElement q v = .ok changed) : c.Takes q := by
  unfold withElement at h
  split at h
  · exact .entry _ _
  · split at h
    · next there =>
      obtain ⟨lower, upper⟩ := index?_isSome_iff.mp there
      exact .item lower upper
    · cases h
  · cases h

/-- What has been put under a key is replaced by what is put there next. -/
theorem withElement_withElement (h : c.withElement q v = .ok changed) (w : Value) :
    changed.withElement q w = c.withElement q w := by
  cases takes_of_withElement h with
  | entry entries k =>
      cases h
      rw [withElement, withElement, Dictionary.insert_insert]
  | @item items n lower upper =>
      have there := index?_isSome_iff.mpr ⟨lower, upper⟩
      rw [withElement, if_pos there] at h
      cases h
      have there' : (index? (items.set n.toInt.toNat v) n).isSome := by
        rw [index?_set there, if_pos rfl]
        rfl
      rw [withElement, withElement, if_pos there, if_pos there', List.set_set]

/-- Elements under different keys may be changed in any order. -/
theorem withElement_comm {between : Value} (apart : q ≠ r)
    (first : c.withElement q v = .ok between) (second : between.withElement r w = .ok changed) :
    ∃ between', c.withElement r w = .ok between' ∧ between'.withElement q v = .ok changed := by
  cases takes_of_withElement first with
  | entry entries k =>
      cases first
      cases takes_of_withElement second with
      | entry _ l =>
          cases second
          refine ⟨_, rfl, ?_⟩
          have keys : k ≠ l := fun same => apart (congrArg str same)
          rw [withElement, Dictionary.insert_comm keys]
  | @item items n lower upper =>
      have there := index?_isSome_iff.mpr ⟨lower, upper⟩
      rw [withElement, if_pos there] at first
      cases first
      cases takes_of_withElement second with
      | @item _ m lower' upper' =>
          have places : n.toInt.toNat ≠ m.toInt.toNat := fun same =>
            apart (congrArg int (Int64.toInt_inj.mp (by omega)))
          rw [withElement, if_pos (index?_isSome_iff.mpr ⟨lower', upper'⟩)] at second
          cases second
          rw [List.length_set] at upper'
          have there' := index?_isSome_iff.mpr ⟨lower', upper'⟩
          have upper : n.toInt < (items.set m.toInt.toNat w).length := by rwa [List.length_set]
          refine ⟨_, if_pos there', ?_⟩
          rw [withElement, if_pos (index?_isSome_iff.mpr ⟨lower, upper⟩), List.set_comm _ _ places]

end Value

/-! ## Runs -/

variable {config : Config} {scope d : ScopeId} {x : Name} {k e : Expr} {p q : Position}
  {cx : Context} {s s₁ t u : State} {container key v changed : Value} {kind : ErrorKind}

/-- Reading an element of a variable is looking into the container that it holds. -/
theorem runs_readElement_iff (held : s.scopes.get? scope x = some container)
    {o : Outcome Raise Value} :
    Runs config (Exec.evaluate (.index (.variable x) (.literal key)) scope) s o t ↔
      Runs config (Exec.ofExcept Raise.ofKind (container.element key)) s o t := by
  have variable_read : Runs config (Exec.evaluate (.variable x) scope) s (.ok container) s :=
    runs_evaluate_iff.mpr (runs_mapError_ok_iff.mpr (runs_readVariable_ok_iff.mpr ⟨held, rfl⟩))
  have literal_read : Runs config (Exec.evaluate (.literal key) scope) s (.ok key) s :=
    runs_evaluate_iff.mpr (runs_pure_iff.mpr ⟨rfl, rfl⟩)
  rw [runs_evaluate_iff, Exec.evaluateBody, runs_bind_of_ok variable_read,
    runs_bind_of_ok literal_read]

/-- A container that has a place for the element is ready to be changed. -/
theorem runs_prepareElement (evaluated : Runs config (Exec.evaluate k scope) s (.ok key) u)
    (held : u.scopes.get? scope x = some container)
    (written : container.withElement key v = .ok changed) :
    Runs config (Exec.prepareAssign p .assign (.place q (.index (.variable x) k)) v scope) s
      (.ok (⟨x, changed⟩, v)) u := by
  have there : Runs config ((Exec.readVariable scope x).mapError Raise.ofKind) u (.ok container) u :=
    runs_mapError_ok_iff.mpr (runs_readVariable_ok_iff.mpr ⟨held, rfl⟩)
  have ready : Runs config (Exec.prepareTarget (.place q (.index (.variable x) k)) v scope) s
      (.ok ⟨x, changed⟩) u := by
    refine runs_mapError_ok_iff.mpr ((runs_bind_of_ok evaluated).mpr ?_)
    rw [runs_bind_of_ok there, written]
    exact runs_pure_iff.mpr ⟨rfl, rfl⟩
  exact (runs_bind_of_ok ready).mpr (runs_pure_iff.mpr ⟨rfl, rfl⟩)

/-- Any other container refuses, and the error is located at the target. -/
theorem runs_prepareElement_refused (evaluated : Runs config (Exec.evaluate k scope) s (.ok key) u)
    (held : u.scopes.get? scope x = some container)
    (refused : container.withElement key v = .error kind) :
    Runs config (Exec.prepareAssign p .assign (.place q (.index (.variable x) k)) v scope) s
      (.raised (.failed ⟨kind, some q⟩)) u := by
  have there : Runs config ((Exec.readVariable scope x).mapError Raise.ofKind) u (.ok container) u :=
    runs_mapError_ok_iff.mpr (runs_readVariable_ok_iff.mpr ⟨held, rfl⟩)
  have fails : Runs config (Exec.preparePlace (.index (.variable x) k) v scope) s
      (.raised (Raise.ofKind kind)) u := by
    rw [Exec.preparePlace, runs_bind_of_ok evaluated, runs_bind_of_ok there, refused]
    exact runs_bind_raised_iff.mpr (Or.inr (runs_raise_iff.mpr ⟨rfl, rfl⟩))
  refine runs_bind_raised_iff.mpr (Or.inr ?_)
  exact runs_mapError_iff.mpr ⟨_, fails, rfl⟩

/-- An element is assigned if the container can be changed. -/
theorem runs_assign_element (value : Runs config (Exec.evaluate e scope) s (.ok v) s₁)
    (evaluated : Runs config (Exec.evaluate k scope) s₁ (.ok key) u)
    (held : u.scopes.get? scope x = some container)
    (written : container.withElement key v = .ok changed) {scopes : ScopeStore}
    (stored : u.scopes.set? scope x changed = some scopes) :
    Runs config (Exec.execute ⟨p, .assign [.place q (.index (.variable x) k)] .assign [e]⟩ scope cx) s
      (.ok (.ofValue v)) { u with scopes } := by
  have ready := runs_prepareElement (p := p) (q := q) evaluated held written
  have paired : assigned [Target.place q (.index (.variable x) k)].length [v] = .ok [v] := rfl
  exact (runs_assignment_iff (runs_evaluateAll_singleton value) paired).mpr
    (Or.inl ⟨[v], .cons ready stored .nil, rfl⟩)

/-- If the container cannot be changed then nothing is written. -/
theorem runs_assign_element_refused (value : Runs config (Exec.evaluate e scope) s (.ok v) s₁)
    (evaluated : Runs config (Exec.evaluate k scope) s₁ (.ok key) u)
    (held : u.scopes.get? scope x = some container)
    (refused : container.withElement key v = .error kind) :
    Runs config (Exec.execute ⟨p, .assign [.place q (.index (.variable x) k)] .assign [e]⟩ scope cx) s
      (.raised ⟨kind, some q⟩) u := by
  have fails := runs_prepareElement_refused (p := p) (q := q) evaluated held refused
  have paired : assigned [Target.place q (.index (.variable x) k)].length [v] = .ok [v] := rfl
  exact (runs_assignment_iff (runs_evaluateAll_singleton value) paired).mpr
    (Or.inr ⟨[], _, ⟨[], _, _, [], s₁, rfl, .nil, fails, by simp⟩, rfl⟩)

/-! ## What has changed -/

/-- The second state is the first one after an element of a variable has been set: the nearest
binding of the variable holds the changed container, and all else is as it was. -/
structure ElementSet (config : Config) (scope d : ScopeId) (x : Name)
    (container key v changed : Value) (s t : State) : Prop where
  nearest : s.scopes.definer? scope x = some d
  replaces : container.Replaces key v changed
  state : t = { s with scopes := s.scopes.define d x changed }
  reads : Runs config (Exec.evaluate (.index (.variable x) (.literal key)) scope) t (.ok v) t
  /-- Under another key one reads what one has read before, or fails as before. -/
  others : ∀ other, other ≠ key → ∀ o,
    Runs config (Exec.evaluate (.index (.variable x) (.literal other)) scope) t o t ↔
      Runs config (Exec.evaluate (.index (.variable x) (.literal other)) scope) s o s
  names : ∀ i, t.scopes.names i = s.scopes.names i
  bindings : ∀ i n, t.scopes.local? i n
    = if i = d ∧ n = x then some changed else s.scopes.local? i n
  /-- The change is seen from the scopes that the variable is the same in, and from no others. -/
  seen : ∀ i n, t.scopes.get? i n
    = if n = x ∧ s.scopes.definer? i x = some d then some changed else s.scopes.get? i n

theorem runs_ofExcept_congr {r : Except ErrorKind Value} {o : Outcome Raise Value} :
    Runs config (Exec.ofExcept Raise.ofKind r) s o s ↔
      Runs config (Exec.ofExcept Raise.ofKind r) t o t := by
  cases r with
  | ok a =>
      have ends : ∀ w, Runs config (Exec.ofExcept Raise.ofKind (.ok a)) w o w ↔ o = .ok a :=
        fun w => runs_pure_iff.trans (and_iff_left rfl)
      rw [ends, ends]
  | error kind =>
      have ends : ∀ w, Runs config (Exec.ofExcept Raise.ofKind (.error kind)) w o w ↔
          o = .raised (Raise.ofKind kind) := fun w => runs_raise_iff.trans (and_iff_left rfl)
      rw [ends, ends]

/-- Storing the changed container sets the element. -/
theorem elementSet_of_stored (held : s.scopes.get? scope x = some container)
    (replaces : container.Replaces key v changed) {scopes : ScopeStore}
    (stored : s.scopes.set? scope x changed = some scopes) :
    ∃ d, ElementSet config scope d x container key v changed s { s with scopes } := by
  obtain ⟨d, nearest, defined⟩ := ScopeStore.set?_eq_some_iff.mp stored
  have now : scopes.get? scope x = some changed := ScopeStore.get?_set?_of_same stored rfl
  refine ⟨d, nearest, replaces, by rw [defined], ?_, fun other apart o => ?_,
    ScopeStore.names_set? stored, fun i n => ?_, fun i n => ?_⟩
  · rw [runs_readElement_iff now, replaces.reads]
    exact runs_pure_iff.mpr ⟨rfl, rfl⟩
  · rw [runs_readElement_iff (s := { s with scopes }) now, runs_readElement_iff held,
      replaces.others other apart]
    exact runs_ofExcept_congr
  · simp only [ScopeStore.local?_set? stored, nearest, Option.some_inj, eq_comm (a := d)]
  · split
    · next same =>
      obtain ⟨rfl, same⟩ := same
      exact ScopeStore.get?_set?_of_same stored (same.trans nearest.symm)
    · next other =>
      refine ScopeStore.get?_set?_of_other stored ?_
      rintro ⟨rfl, same⟩
      exact other ⟨rfl, same.trans nearest⟩

/-! ## Two assignments -/

/-- A value that is written out is assigned under a key that is written out. -/
def elementAssignment (p q : Position) (x : Name) (key v : Value) : Stmt :=
  ⟨p, .assign [.place q (.index (.variable x) (.literal key))] .assign [.literal v]⟩

theorem runs_elementAssignment_iff :
    Runs config (Exec.execute (elementAssignment p q x key v) scope cx) s (.ok (.ofValue v)) t ↔
      ∃ container changed scopes, s.scopes.get? scope x = some container ∧
        container.withElement key v = .ok changed ∧
        s.scopes.set? scope x changed = some scopes ∧ t = { s with scopes } := by
  have literal : ∀ w : Value, Runs config (Exec.evaluate (.literal w) scope) s (.ok w) s := fun w =>
    runs_evaluate_iff.mpr (runs_pure_iff.mpr ⟨rfl, rfl⟩)
  constructor
  · intro run
    obtain ⟨operand, _, written, evaluated, one, -⟩ := runs_assignSingle_ok_iff.mp
      (runs_located_normal rfl (runs_execute_iff.mp run))
    obtain ⟨same, rfl⟩ := evaluated.unique (literal v)
    cases same
    obtain ⟨_, _, write, done⟩ := runs_bind_ok_iff.mp one
    obtain ⟨_, rfl⟩ := runs_pure_iff.mp done
    obtain ⟨key', _, container, changed, scopes, evaluated, held, written, stored, rfl⟩ :=
      runs_assignElement_ok_iff.mp (runs_mapError_ok_iff.mp write)
    obtain ⟨same, rfl⟩ := evaluated.unique (literal key)
    cases same
    exact ⟨container, changed, scopes, held, written, stored, rfl⟩
  · rintro ⟨container, changed, scopes, held, written, stored, rfl⟩
    exact runs_assign_element (literal v) (literal key) held written stored

variable {key' v' : Value} {p' q' : Position}

/-- The statements run one after the other and complete with the values given. -/
def RunsBoth (config : Config) (scope : ScopeId) (cx : Context) (a b : Stmt) (v w : Value)
    (s t : State) : Prop :=
  ∃ u, Runs config (Exec.execute a scope cx) s (.ok (.ofValue v)) u ∧
    Runs config (Exec.execute b scope cx) u (.ok (.ofValue w)) t

/-- Two elements are assigned if the container can be changed twice. -/
theorem runsBoth_elements_iff :
    RunsBoth config scope cx (elementAssignment p q x key v) (elementAssignment p' q' x key' v')
        v v' s t ↔
      ∃ container between changed scopes, s.scopes.get? scope x = some container ∧
        container.withElement key v = .ok between ∧ between.withElement key' v' = .ok changed ∧
        s.scopes.set? scope x changed = some scopes ∧ t = { s with scopes } := by
  simp only [RunsBoth, runs_elementAssignment_iff]
  constructor
  · rintro ⟨_, ⟨container, between, scopes, held, first, stored, rfl⟩,
      ⟨container', changed, scopes', held', second, stored', rfl⟩⟩
    cases held'.symm.trans (ScopeStore.get?_set?_of_same stored rfl)
    exact ⟨container, between, changed, scopes', held, first, second,
      (ScopeStore.set?_set? stored changed).symm.trans stored', rfl⟩
  · rintro ⟨container, between, changed, scopes, held, first, second, stored, rfl⟩
    obtain ⟨scopes', stored'⟩ := ScopeStore.exists_set? (Option.isSome_of_mem held) between
    exact ⟨{ s with scopes := scopes' }, ⟨container, between, scopes', held, first, stored', rfl⟩,
      between, changed, scopes, ScopeStore.get?_set?_of_same stored' rfl, second,
      (ScopeStore.set?_set? stored' changed).trans stored, rfl⟩

/-- Elements under different keys may be assigned in any order. -/
theorem runsBoth_swap (apart : key ≠ key')
    (run : RunsBoth config scope cx (elementAssignment p q x key v)
      (elementAssignment p' q' x key' v') v v' s t) :
    RunsBoth config scope cx (elementAssignment p' q' x key' v') (elementAssignment p q x key v)
      v' v s t := by
  obtain ⟨container, between, changed, scopes, held, first, second, stored, rfl⟩ :=
    runsBoth_elements_iff.mp run
  obtain ⟨between', first', second'⟩ := Value.withElement_comm apart first second
  exact runsBoth_elements_iff.mpr
    ⟨container, between', changed, scopes, held, first', second', stored, rfl⟩

/-- Of two assignments under the same key the second one counts. -/
theorem runsBoth_again_iff :
    RunsBoth config scope cx (elementAssignment p q x key v) (elementAssignment p' q' x key v')
        v v' s t ↔
      Runs config (Exec.execute (elementAssignment p' q' x key v') scope cx) s
        (.ok (.ofValue v')) t := by
  rw [runsBoth_elements_iff, runs_elementAssignment_iff]
  constructor
  · rintro ⟨container, between, changed, scopes, held, first, second, stored, rfl⟩
    rw [Value.withElement_withElement first] at second
    exact ⟨container, changed, scopes, held, second, stored, rfl⟩
  · rintro ⟨container, changed, scopes, held, written, stored, rfl⟩
    obtain ⟨between, first, second⟩ := Value.withElement_again written v
    exact ⟨container, between, changed, scopes, held, first, second, stored, rfl⟩

/-! ## The law -/

/-- **An element is assigned as if the container were copied, changed and put back.** Let the value and
the key of an assignment to an element of a variable have been evaluated. If the container that the
variable holds then has a place for the element, the assignment ends normally with the element set;
if it has none, the assignment fails at its target and nothing has changed since. Assignments of
given values under different keys come to the same in both orders, and under the same key the second
one comes to the same as both. -/
theorem element_assignment (value : Runs config (Exec.evaluate e scope) s (.ok v) s₁)
    (evaluated : Runs config (Exec.evaluate k scope) s₁ (.ok key) u)
    (held : u.scopes.get? scope x = some container) :
    (container.Takes key → ∃ d changed t,
      Runs config (Exec.execute
        ⟨p, .assign [.place q (.index (.variable x) k)] .assign [e]⟩ scope cx) s (.ok (.ofValue v)) t ∧
      ElementSet config scope d x container key v changed u t) ∧
    (¬ container.Takes key → ∃ kind,
      Runs config (Exec.execute
        ⟨p, .assign [.place q (.index (.variable x) k)] .assign [e]⟩ scope cx) s
        (.raised ⟨kind, some q⟩) u) ∧
    (∀ p' q' key' v' w t, key' ≠ key →
      (RunsBoth config scope cx (elementAssignment p q x key v) (elementAssignment p' q' x key' v')
          v v' w t ↔
        RunsBoth config scope cx (elementAssignment p' q' x key' v') (elementAssignment p q x key v)
          v' v w t)) ∧
    ∀ p' q' v' w t,
      (RunsBoth config scope cx (elementAssignment p q x key v) (elementAssignment p' q' x key v')
          v v' w t ↔
        Runs config (Exec.execute (elementAssignment p' q' x key v') scope cx) w
          (.ok (.ofValue v')) t) := by
  refine ⟨fun takes => ?_, fun none => ?_, fun p' q' key' v' w t apart => ?_, fun p' q' v' w t => ?_⟩
  · obtain ⟨changed, written, replaces⟩ := takes.exists_replaces v
    obtain ⟨scopes, stored⟩ := ScopeStore.exists_set? (Option.isSome_of_mem held) changed
    obtain ⟨d, set⟩ := elementSet_of_stored held replaces stored
    exact ⟨d, changed, _, runs_assign_element value evaluated held written stored, set⟩
  · cases outcome : container.withElement key v with
    | ok changed => exact absurd (Value.takes_of_withElement outcome) none
    | error kind => exact ⟨kind, runs_assign_element_refused value evaluated held outcome⟩
  · exact ⟨runsBoth_swap apart.symm, runsBoth_swap apart⟩
  · exact runsBoth_again_iff

/-- A list that two variables hold, and a scope below them. -/
def sharedList : State :=
  { State.initial .deferred .log with
    scopes := (((ScopeStore.empty.add none).define ⟨0⟩ "xs" (.list [.int 10, .int 20])).define ⟨0⟩
      "ys" (.list [.int 10, .int 20])).add (some ⟨0⟩) }

/-- One of the variables gets another element, the other one keeps the list. Behind the end of the
list there is no place for an element. -/
theorem element_assignment_shared :
    let set (n : Int64) : Stmt := elementAssignment ⟨1, 1⟩ ⟨1, 1⟩ "xs" (.int n) (.int 30)
    (∃ t, Runs .standard (Exec.execute (set 1) ⟨1⟩ .function) sharedList (.ok (.ofValue (.int 30))) t ∧
      Runs .standard (Exec.evaluate (.index (.variable "xs") (.literal (.int 1))) ⟨1⟩) t
        (.ok (.int 30)) t ∧
      t.scopes.get? ⟨1⟩ "ys" = some (.list [.int 10, .int 20])) ∧
    ∃ kind, Runs .standard (Exec.execute (set 2) ⟨1⟩ .function) sharedList
      (.raised ⟨kind, some ⟨1, 1⟩⟩) sharedList := by
  intro set
  have literal : ∀ w : Value,
      Runs .standard (Exec.evaluate (.literal w) ⟨1⟩) sharedList (.ok w) sharedList := fun w =>
    runs_evaluate_iff.mpr (runs_pure_iff.mpr ⟨rfl, rfl⟩)
  have held : sharedList.scopes.get? ⟨1⟩ "xs" = some (.list [.int 10, .int 20]) := rfl
  have inside : (Value.list [.int 10, .int 20]).Takes (.int 1) := .item (by decide) (by decide)
  have outside : ¬ (Value.list [.int 10, .int 20]).Takes (.int 2) := fun takes => by
    cases takes with
    | item lower upper => exact absurd upper (by decide)
  constructor
  · obtain ⟨d, changed, t, run, after⟩ :=
      (element_assignment (literal (.int 30)) (literal (.int 1)) held).1 inside
    refine ⟨t, run, after.reads, ?_⟩
    rw [after.seen, if_neg fun h => absurd h.1 (by decide)]
    rfl
  · exact (element_assignment (literal (.int 30)) (literal (.int 2)) held).2.1 outside

end StatementEngine
