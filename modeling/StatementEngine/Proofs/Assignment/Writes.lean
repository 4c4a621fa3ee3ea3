import StatementEngine.Proofs.Pieces
import StatementEngine.Proofs.Scope.Overwriting

/-!
# What an assignment writes

**An assignment gets ready and then writes one variable.** Whatever can go wrong goes wrong before the
write: reading the target, combining it with the operand, evaluating a key and finding the element.
All of this is `Exec.prepareAssign`, and it ends with a `PendingWrite` of a variable that can be seen.
The write itself cannot fail (`assignOne_eq`).

So a list of assignments either has written all its targets (`Assigns`), or it has written those
before the first one that did not get ready, and nothing of that one (`AssignsUntil`). There is no
other end (`runs_assignEach_iff`).
-/

namespace StatementEngine

/-- A write that nothing stands in the way of any more: a variable and what it becomes. -/
structure PendingWrite where
  name : Name
  content : Value

variable {config : Config} {p : Position} {op : AssignOp} {scope : ScopeId} {s t u : State}
  {ε : Type} {target : Target} {v : Value} {w : PendingWrite}

namespace Exec

/-- Gets the write of an element ready. -/
def preparePlace (place : Expr) (value : Value) (scope : ScopeId) : Exec Raise PendingWrite :=
  match place with
  | .index (.variable name) key => do
    let k ← evaluate key scope
    let container ← (readVariable scope name).mapError .ofKind
    let changed ← ofExcept .ofKind (container.withElement k value)
    pure ⟨name, changed⟩
  | .index _ _ =>
    raise (.ofKind (.invalidOperation "only variables can be indexed for assignment"))
  | _ => raise (.ofKind (.invalidOperation "invalid assignment target"))

/-- Gets the write of a target ready. A variable only has to be there. -/
def prepareTarget (target : Target) (value : Value) (scope : ScopeId) : Exec Raise PendingWrite :=
  match target with
  | .variable _ name => do
    let _ ← readTarget target scope
    pure ⟨name, value⟩
  | .place p place => (preparePlace place value scope).mapError (·.fillPosition p)

/-- Gets the assignment of a value to a target ready, and yields what will have been assigned. -/
def prepareAssign (p : Position) (op : AssignOp) (target : Target) (value : Value)
    (scope : ScopeId) : Exec Raise (PendingWrite × Value) := do
  if op.isCompound then
    let current ← readTarget target scope
    let updated ← ofExcept (fun k => (Raise.ofKind k).fillPosition p) (op.apply current value)
    let w ← prepareTarget target updated scope
    pure (w, updated)
  else
    let w ← prepareTarget target value scope
    pure (w, value)

/-- Writes what is pending. -/
def store (scope : ScopeId) (w : PendingWrite) : Exec ε Unit :=
  modify fun s => { s with scopes := (s.scopes.set? scope w.name w.content).getD s.scopes }

/-! ## Getting ready comes first -/

/-- A variable that can be read can be written. -/
theorem setVariable_of_seen {name : Name} (seen : (s.scopes.get? scope name).isSome)
    (content : Value) : setVariable scope name content s = store scope ⟨name, content⟩ s := by
  have found : (s.scopes.definer? scope name).isSome := by
    rw [ScopeStore.get?_eq] at seen
    exact Option.isSome_of_isSome_bind seen
  obtain ⟨d, found⟩ := Option.isSome_iff_exists.mp found
  rw [setVariable_apply, found, store, modify, ScopeStore.set?_eq, found]
  rfl

/-- Writing a variable fails exactly if reading it does. -/
theorem setVariable_eq (scope : ScopeId) (name : Name) (content : Value) :
    setVariable scope name content = (do
      let _ ← readVariable scope name
      store scope ⟨name, content⟩) := by
  funext s
  rw [bind_apply, readVariable]
  cases seen : s.scopes.get? scope name with
  | some old => exact setVariable_of_seen (by simp [seen]) content
  | none =>
      have lost : s.scopes.definer? scope name = none := by
        cases found : s.scopes.definer? scope name with
        | none => rfl
        | some d =>
            obtain ⟨old, bound⟩ := Option.isSome_iff_exists.mp
              (ScopeStore.definer?_eq_some_iff.mp found).2
            rw [ScopeStore.get?_eq, found, Option.bind_some, bound] at seen
            cases seen
      rw [setVariable_apply, lost]
      rfl

/-- A container that can be read can be changed in its place. -/
theorem setVariable_of_read {name : Name} (change : Value → Except ErrorKind Value) :
    (do let container ← (readVariable scope name).mapError Raise.ofKind
        let changed ← ofExcept Raise.ofKind (change container)
        (setVariable scope name changed).mapError Raise.ofKind) =
      (do let container ← (readVariable scope name).mapError Raise.ofKind
          let changed ← ofExcept Raise.ofKind (change container)
          store scope ⟨name, changed⟩) := by
  funext s
  rw [bind_apply, bind_apply, mapError, readVariable]
  cases seen : s.scopes.get? scope name with
  | none => rfl
  | some container =>
      show (ofExcept _ _ >>= _) s = (ofExcept _ _ >>= _) s
      cases change container with
      | error kind => rfl
      | ok changed =>
          show mapError _ (setVariable scope name changed) s = _
          rw [mapError, setVariable_of_seen (by simp [seen]) changed]
          rfl

theorem assignPlace_eq (place : Expr) (value : Value) (scope : ScopeId) :
    assignPlace place value scope = preparePlace place value scope >>= store scope := by
  fun_cases preparePlace place value scope with
  | case1 name key =>
      simp only [assignPlace, bind_assoc, pure_bind]
      exact congrArg _ (funext fun k => setVariable_of_read (·.withElement k value))
  | case2 container key other =>
      simp only [assignPlace]
      rfl
  | case3 other =>
      simp only [assignPlace]
      rfl

theorem writeTarget_eq (target : Target) (value : Value) (scope : ScopeId) :
    writeTarget target value scope = prepareTarget target value scope >>= store scope := by
  match target with
  | .variable p name =>
      rw [writeTarget, setVariable_eq scope name value, mapError_bind, prepareTarget, bind_assoc]
      rfl
  | .place p place =>
      rw [writeTarget, assignPlace_eq, mapError_bind]
      rfl

/-- An assignment gets ready, writes, and yields what it has assigned. -/
theorem assignOne_eq (p : Position) (op : AssignOp) (target : Target) (value : Value)
    (scope : ScopeId) : assignOne p op target value scope = (do
      let (w, assigned) ← prepareAssign p op target value scope
      store scope w
      pure assigned) := by
  unfold assignOne prepareAssign
  split
  · simp only [writeTarget_eq, bind_assoc, pure_bind]
  · simp only [writeTarget_eq, bind_assoc, pure_bind]

end Exec

/-! ## One target -/

theorem seen_of_prepareTarget
    (h : Runs config (Exec.prepareTarget target v scope) s (.ok w) t) :
    (t.scopes.get? scope w.name).isSome := by
  match target with
  | .variable p name =>
      obtain ⟨old, u, read, h⟩ := runs_bind_ok_iff.mp h
      obtain ⟨hw, rfl⟩ := runs_pure_iff.mp h
      obtain ⟨known, rfl⟩ := runs_readVariable_ok_iff.mp (runs_mapError_ok_iff.mp read)
      cases hw
      exact Option.isSome_of_mem known
  | .place p place =>
      have h := runs_mapError_ok_iff.mp h
      unfold Exec.preparePlace at h
      split at h
      · next name key =>
        simp only [runs_bind_ok_iff, runs_mapError_ok_iff, runs_readVariable_ok_iff,
          runs_ofExcept_ok_iff, runs_pure_iff] at h
        obtain ⟨k, u, -, container, _, ⟨known, rfl⟩, changed, _, ⟨-, rfl⟩, hw, rfl⟩ := h
        cases hw
        exact Option.isSome_of_mem known
      · cases (runs_raise_iff.mp h).1
      · cases (runs_raise_iff.mp h).1

/-- What is ready to be written is a variable that can be seen. -/
theorem seen_of_prepareAssign {a : Value}
    (h : Runs config (Exec.prepareAssign p op target v scope) s (.ok (w, a)) t) :
    (t.scopes.get? scope w.name).isSome := by
  unfold Exec.prepareAssign at h
  split at h
  · obtain ⟨old, u, -, h⟩ := runs_bind_ok_iff.mp h
    obtain ⟨updated, u, -, h⟩ := runs_bind_ok_iff.mp h
    obtain ⟨w', u, ready, h⟩ := runs_bind_ok_iff.mp h
    obtain ⟨same, rfl⟩ := runs_pure_iff.mp h
    cases same
    exact seen_of_prepareTarget ready
  · obtain ⟨w', u, ready, h⟩ := runs_bind_ok_iff.mp h
    obtain ⟨same, rfl⟩ := runs_pure_iff.mp h
    cases same
    exact seen_of_prepareTarget ready

/-- A variable that can be seen can be overwritten. -/
theorem ScopeStore.exists_set? {store : ScopeStore} {name : Name}
    (seen : (store.get? scope name).isSome) (content : Value) :
    ∃ scopes, store.set? scope name content = some scopes := by
  rw [get?_eq] at seen
  obtain ⟨d, found⟩ := Option.isSome_iff_exists.mp (Option.isSome_of_isSome_bind seen)
  exact ⟨_, set?_eq_some_iff.mpr ⟨d, found, rfl⟩⟩

/-! ## One target after the other -/

/-- Values are assigned to targets one after the other: each assignment gets ready in the state that
the ones before it have left and overwrites one variable. Last but one come the values that have been
assigned. -/
inductive Assigns (config : Config) (p : Position) (op : AssignOp) (scope : ScopeId) :
    List (Target × Value) → State → List Value → State → Prop
  | nil {s : State} : Assigns config p op scope [] s [] s
  | cons {target : Target} {v a : Value} {rest : List (Target × Value)} {s u t : State}
      {w : PendingWrite} {scopes : ScopeStore} {values : List Value}
      (ready : Runs config (Exec.prepareAssign p op target v scope) s (.ok (w, a)) u)
      (stored : u.scopes.set? scope w.name w.content = some scopes)
      (later : Assigns config p op scope rest { u with scopes } values t) :
      Assigns config p op scope ((target, v) :: rest) s (a :: values) t

/-- Values are assigned to the targets before one that does not get ready. -/
def AssignsUntil (config : Config) (p : Position) (op : AssignOp) (scope : ScopeId)
    (pairs : List (Target × Value)) (s : State) (values : List Value)
    (q : Outcome Raise (PendingWrite × Value)) (t : State) : Prop :=
  ∃ done target v rest u, pairs = done ++ (target, v) :: rest ∧
    Assigns config p op scope done s values u ∧
    Runs config (Exec.prepareAssign p op target v scope) u q t ∧ ∀ r, q ≠ .ok r

variable {pairs rest : List (Target × Value)} {values : List Value}
  {q : Outcome Raise (PendingWrite × Value)}

/-- The last value is one that has been assigned, if there is a target. -/
theorem Assigns.last_eq (h : Assigns config p op scope pairs s values t) (targeted : pairs ≠ []) :
    Completion.ofValue (values.getLastD .nil) = ⟨values.getLast?, .none⟩ := by
  cases h with
  | nil => exact absurd rfl targeted
  | cons => simp [Completion.ofValue, List.getLast?_cons]

theorem assigns_cons_iff :
    Assigns config p op scope ((target, v) :: rest) s values t ↔
      ∃ w a u scopes values', values = a :: values' ∧
        Runs config (Exec.prepareAssign p op target v scope) s (.ok (w, a)) u ∧
        u.scopes.set? scope w.name w.content = some scopes ∧
        Assigns config p op scope rest { u with scopes } values' t := by
  constructor
  · intro all
    cases all with
    | cons ready stored later => exact ⟨_, _, _, _, _, rfl, ready, stored, later⟩
  · rintro ⟨w, a, u, scopes, values', rfl, ready, stored, later⟩
    exact .cons ready stored later

theorem AssignsUntil.fails (h : AssignsUntil config p op scope pairs s values q t) :
    ∀ r, q ≠ .ok r := by
  obtain ⟨_, _, _, _, _, _, _, _, fails⟩ := h
  exact fails

theorem not_assignsUntil_nil : ¬ AssignsUntil config p op scope [] s values q t := by
  rintro ⟨done, target, v, rest, u, same, -⟩
  cases done <;> cases same

theorem assignsUntil_cons_iff :
    AssignsUntil config p op scope ((target, v) :: rest) s values q t ↔
      (values = [] ∧ Runs config (Exec.prepareAssign p op target v scope) s q t ∧
        ∀ r, q ≠ .ok r) ∨
      ∃ w a u scopes values', values = a :: values' ∧
        Runs config (Exec.prepareAssign p op target v scope) s (.ok (w, a)) u ∧
        u.scopes.set? scope w.name w.content = some scopes ∧
        AssignsUntil config p op scope rest { u with scopes } values' q t := by
  constructor
  · rintro ⟨done, target', v', rest', u, same, before, fails⟩
    cases before with
    | nil =>
        cases same
        exact Or.inl ⟨rfl, fails⟩
    | cons ready stored later =>
        cases same
        exact Or.inr ⟨_, _, _, _, _, rfl, ready, stored, _, _, _, _, _, rfl, later, fails⟩
  · intro run
    rcases run with ⟨rfl, fails⟩ |
      ⟨w, a, u, scopes, values', rfl, ready, stored, done, _, _, _, _, rfl, later, fails⟩
    · exact ⟨[], target, v, rest, s, rfl, .nil, fails⟩
    · exact ⟨(target, v) :: done, _, _, _, _, rfl, .cons ready stored later, fails⟩

/-- The first assignment gets ready and overwrites one variable, and the others follow; or it does not
get ready. -/
theorem runs_assignEach_cons_iff {last : Value} {o : Outcome Raise Value} :
    Runs config (Exec.assignEach p op scope ((target, v) :: rest) last) s o t ↔
      (∃ w a u scopes, Runs config (Exec.prepareAssign p op target v scope) s (.ok (w, a)) u ∧
        u.scopes.set? scope w.name w.content = some scopes ∧
        Runs config (Exec.assignEach p op scope rest a) { u with scopes } o t) ∨
      ∃ q, Runs config (Exec.prepareAssign p op target v scope) s q t ∧ (∀ r, q ≠ .ok r) ∧
        o = q.mapValue Prod.snd := by
  have written : ∀ {w : PendingWrite} {scopes : ScopeStore} {u : State},
      u.scopes.set? scope w.name w.content = some scopes →
      Runs config (Exec.store scope w : Exec Raise Unit) u (.ok ()) { u with scopes } := by
    intro w scopes u stored
    exact runs_modify_iff.mpr ⟨rfl, by rw [stored]; rfl⟩
  rw [Exec.assignEach, Exec.assignOne_eq, bind_assoc, runs_bind_or_iff Prod.snd]
  simp only [bind_assoc, pure_bind]
  refine or_congr_left ?_
  constructor
  · rintro ⟨⟨w, a⟩, u, ready, run⟩
    obtain ⟨scopes, stored⟩ := ScopeStore.exists_set? (seen_of_prepareAssign ready) w.content
    exact ⟨w, a, u, scopes, ready, stored, (runs_bind_of_ok (written stored)).mp run⟩
  · rintro ⟨w, a, u, scopes, ready, stored, run⟩
    exact ⟨(w, a), u, ready, (runs_bind_of_ok (written stored)).mpr run⟩

/-- Assigning to one target after the other ends with all of them written, or at the first one that
does not get ready. -/
theorem runs_assignEach_iff {last : Value} {o : Outcome Raise Value} :
    Runs config (Exec.assignEach p op scope pairs last) s o t ↔
      (∃ values, Assigns config p op scope pairs s values t ∧ o = .ok (values.getLastD last)) ∨
      ∃ values q, AssignsUntil config p op scope pairs s values q t ∧
        o = q.mapValue Prod.snd := by
  induction pairs generalizing s last with
  | nil =>
      rw [Exec.assignEach, runs_pure_iff]
      constructor
      · rintro ⟨rfl, rfl⟩
        exact Or.inl ⟨[], .nil, rfl⟩
      · rintro (⟨_, ⟨⟩, rfl⟩ | ⟨_, _, stopped, -⟩)
        · exact ⟨rfl, rfl⟩
        · exact absurd stopped not_assignsUntil_nil
  | cons pair rest ih =>
      obtain ⟨target, v⟩ := pair
      rw [runs_assignEach_cons_iff]
      simp only [ih, assigns_cons_iff, assignsUntil_cons_iff]
      constructor
      · rintro (⟨w, a, u, scopes, ready, stored, ⟨values, all, rfl⟩ | ⟨values, q, stopped, rfl⟩⟩ |
          ⟨q, hq, fails, rfl⟩)
        · exact Or.inl ⟨_, ⟨w, a, u, scopes, values, rfl, ready, stored, all⟩, by
            rw [List.getLastD_cons]⟩
        · exact Or.inr ⟨_, q, Or.inr ⟨w, a, u, scopes, values, rfl, ready, stored, stopped⟩, rfl⟩
        · exact Or.inr ⟨[], q, Or.inl ⟨rfl, hq, fails⟩, rfl⟩
      · rintro (⟨_, ⟨w, a, u, scopes, values, rfl, ready, stored, all⟩, rfl⟩ |
          ⟨_, q, ⟨rfl, hq, fails⟩ | ⟨w, a, u, scopes, values, rfl, ready, stored, stopped⟩, rfl⟩)
        · exact Or.inl ⟨w, a, u, scopes, ready, stored, Or.inl ⟨values, all, by
            rw [List.getLastD_cons]⟩⟩
        · exact Or.inr ⟨q, hq, fails, rfl⟩
        · exact Or.inl ⟨w, a, u, scopes, ready, stored, Or.inr ⟨values, q, stopped, rfl⟩⟩

end StatementEngine
