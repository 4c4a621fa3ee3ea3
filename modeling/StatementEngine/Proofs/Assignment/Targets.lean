import Mathlib.Data.List.Nodup
import StatementEngine.Proofs.Assignment.Writes
import StatementEngine.Proofs.ElementUpdate

/-!
# Repeated targets and targets in any order

**What several assignments make of a target.** Under a compound operator each of them reads what the
ones before it have written, so a variable that is assigned to several times accumulates, whatever
other variables stand in between (`exists_assigns_accumulated`), and so does an element
(`exists_assigns_element`). Without an operator different variables do not get in each other's way:
the assignments are one list of overwritten names (`assigns_plain`), in any order.
-/

namespace StatementEngine

variable {config : Config} {p q : Position} {op : AssignOp} {scope : ScopeId} {s t u : State}
  {x : Name} {v old new : Value} {pairs : List (Target × Value)}

/-! ## Variables -/

/-- The variable that a target is, if it is one. -/
def Target.name? : Target → Option Name
  | .variable _ name => some name
  | .place .. => none

theorem Target.name?_eq_some_iff {target : Target} :
    target.name? = some x ↔ ∃ q, target = .variable q x := by
  cases target <;> simp [name?]

/-- The values that are assigned to a variable, in order. -/
def valuesFor (x : Name) (pairs : List (Target × Value)) : List Value :=
  (pairs.filter fun e => e.1.name? = some x).map (·.2)

/-- The names that are given values, if all targets are variables. -/
def namedValues (pairs : List (Target × Value)) : List (Name × Value) :=
  pairs.filterMap fun e => e.1.name?.map fun x => (x, e.2)

/-- A variable that can be seen is ready to be overwritten. -/
theorem runs_prepareAssign_plain (known : s.scopes.get? scope x = some old) :
    Runs config (Exec.prepareAssign p .assign (.variable q x) v scope) s (.ok (⟨x, v⟩, v)) s := by
  have read : Runs config (Exec.readTarget (.variable q x) scope) s (.ok old) s :=
    runs_mapError_ok_iff.mpr (runs_readVariable_ok_iff.mpr ⟨known, rfl⟩)
  have ready : Runs config (Exec.prepareTarget (.variable q x) v scope) s (.ok ⟨x, v⟩) s :=
    (runs_bind_of_ok read).mpr (runs_pure_iff.mpr ⟨rfl, rfl⟩)
  exact (runs_bind_of_ok ready).mpr (runs_pure_iff.mpr ⟨rfl, rfl⟩)

/-- A compound assignment is ready when its target has been read and the result is. -/
theorem runs_prepareAssign_of_read (compound : op.isCompound = true) {target : Target}
    {w : PendingWrite}
    (read : Runs config (Exec.readTarget target scope) s (.ok old) u)
    (applied : op.apply old v = .ok new)
    (ready : Runs config (Exec.prepareTarget target new scope) u (.ok w) t) :
    Runs config (Exec.prepareAssign p op target v scope) s (.ok (w, new)) t := by
  rw [Exec.prepareAssign, if_pos compound, runs_bind_of_ok read, applied]
  exact (runs_bind_of_ok ready).mpr (runs_pure_iff.mpr ⟨rfl, rfl⟩)

/-- A variable that can be combined with the operand is ready to be updated. -/
theorem runs_prepareAssign_compound (compound : op.isCompound = true)
    (known : s.scopes.get? scope x = some old) (applied : op.apply old v = .ok new) :
    Runs config (Exec.prepareAssign p op (.variable q x) v scope) s (.ok (⟨x, new⟩, new)) s := by
  have read : Runs config (Exec.readTarget (.variable q x) scope) s (.ok old) s :=
    runs_mapError_ok_iff.mpr (runs_readVariable_ok_iff.mpr ⟨known, rfl⟩)
  have ready : Runs config (Exec.prepareTarget (.variable q x) new scope) s (.ok ⟨x, new⟩) s :=
    (runs_bind_of_ok read).mpr (runs_pure_iff.mpr ⟨rfl, rfl⟩)
  exact runs_prepareAssign_of_read compound read applied ready

/-- The values after the first one are combined with what it has made of the variable. -/
theorem foldlM_apply_cons_iff {vs : List Value} :
    (v :: vs).foldlM op.apply old = .ok new ↔
      ∃ a, op.apply old v = .ok a ∧ vs.foldlM op.apply a = .ok new := by
  rw [List.foldlM_cons]
  cases op.apply old v with
  | error kind => simp [bind, Except.bind]
  | ok a => simp [bind, Except.bind]

/-- **Variables accumulate.** If all targets are variables and the operator can be applied to each of
them and its values in order, then everything is assigned, and every variable holds what the operator
makes of its value at first and the values that it has been assigned. -/
theorem exists_assigns_accumulated (compound : op.isCompound = true)
    (folds : ∀ e ∈ pairs, ∃ x old new, e.1.name? = some x ∧ s.scopes.get? scope x = some old ∧
      (valuesFor x pairs).foldlM op.apply old = .ok new) :
    ∃ values t, Assigns config p op scope pairs s values t ∧
      ∀ x old new, s.scopes.get? scope x = some old →
        (valuesFor x pairs).foldlM op.apply old = .ok new → t.scopes.get? scope x = some new := by
  induction pairs generalizing s with
  | nil =>
      refine ⟨[], s, .nil, fun x old new known fold => ?_⟩
      cases fold
      exact known
  | cons e rest ih =>
      obtain ⟨target, v⟩ := e
      obtain ⟨x, old, new, name, known, fold⟩ := folds _ List.mem_cons_self
      obtain ⟨q, rfl⟩ := Target.name?_eq_some_iff.mp name
      have own : ∀ y, valuesFor y ((.variable q x, v) :: rest)
          = if x = y then v :: valuesFor y rest else valuesFor y rest := by
        intro y
        by_cases same : x = y
        · simp [valuesFor, Target.name?, same]
        · simp [valuesFor, Target.name?, same]
      rw [own, if_pos rfl] at fold
      obtain ⟨a, applied, -⟩ := foldlM_apply_cons_iff.mp fold
      obtain ⟨scopes, stored⟩ := ScopeStore.exists_set? (Option.isSome_of_mem known) a
      -- what is still to come for a variable starts from what it holds now
      have onward : ∀ y o n, s.scopes.get? scope y = some o →
          (valuesFor y ((.variable q x, v) :: rest)).foldlM op.apply o = .ok n →
          ∃ o', scopes.get? scope y = some o' ∧
            (valuesFor y rest).foldlM op.apply o' = .ok n := by
        intro y o n known' fold'
        rw [own] at fold'
        by_cases same : x = y
        · subst same
          rw [if_pos rfl] at fold'
          obtain rfl := Option.some.inj (known.symm.trans known')
          obtain ⟨a', applied', fold'⟩ := foldlM_apply_cons_iff.mp fold'
          obtain rfl := Except.ok.inj (applied.symm.trans applied')
          exact ⟨a, ScopeStore.get?_set?_of_same stored rfl, fold'⟩
        · rw [if_neg same] at fold'
          refine ⟨o, ?_, fold'⟩
          rw [ScopeStore.get?_set?_of_other stored fun h => same h.1.symm, known']
      obtain ⟨values, t, later, ends⟩ := @ih { s with scopes } fun e he => by
        obtain ⟨y, o, n, name', known', fold'⟩ := folds e (List.mem_cons_of_mem _ he)
        obtain ⟨o', known'', fold''⟩ := onward y o n known' fold'
        exact ⟨y, o', n, name', known'', fold''⟩
      refine ⟨a :: values, t, ?_, fun y o n known' fold' => ?_⟩
      · exact .cons (runs_prepareAssign_compound compound known applied) stored later
      · obtain ⟨o', known'', fold''⟩ := onward y o n known' fold'
        exact ends y o' n known'' fold''

/-- **Plain assignments to variables overwrite their names in order.** -/
theorem assigns_plain (named : ∀ e ∈ pairs, (e.1.name?).isSome) {scopes : ScopeStore}
    (stored : s.scopes.setAll? scope (namedValues pairs) = some scopes) :
    Assigns config p .assign scope pairs s (pairs.map (·.2)) { s with scopes } := by
  induction pairs generalizing s with
  | nil =>
      cases stored
      exact .nil
  | cons e rest ih =>
      obtain ⟨target, v⟩ := e
      obtain ⟨x, name⟩ := Option.isSome_iff_exists.mp (named _ List.mem_cons_self)
      obtain ⟨q, rfl⟩ := Target.name?_eq_some_iff.mp name
      obtain ⟨first, here, stored⟩ := Option.bind_eq_some_iff.mp stored
      obtain ⟨d, found, -⟩ := ScopeStore.set?_eq_some_iff.mp here
      obtain ⟨old, bound⟩ := Option.isSome_iff_exists.mp
        (ScopeStore.definer?_eq_some_iff.mp found).2
      have known : s.scopes.get? scope x = some old := by
        rw [ScopeStore.get?_eq, found, Option.bind_some, bound]
      exact .cons (runs_prepareAssign_plain known) here
        (@ih { s with scopes := first } (fun e he => named e (List.mem_cons_of_mem _ he)) stored)

/-- Different variables that can be seen may be assigned to in any order: everything is assigned, and
the state that it ends in is the same. -/
theorem exists_assigns_perm
    (seen : ∀ e ∈ pairs, ∃ x, e.1.name? = some x ∧ s.scopes.contains scope x = true)
    (distinct : (pairs.map (·.1.name?)).Nodup) :
    ∃ t, ∀ pairs', pairs'.Perm pairs →
      Assigns config p .assign scope pairs' s (pairs'.map (·.2)) t := by
  have named : ∀ e ∈ pairs, (e.1.name?).isSome := fun e he => by
    obtain ⟨x, name, -⟩ := seen e he
    exact Option.isSome_of_mem name
  have names : (namedValues pairs).map (·.1) = (pairs.map (·.1.name?)).filterMap id := by
    rw [namedValues, List.map_filterMap, List.filterMap_map]
    refine List.filterMap_congr fun e _ => ?_
    simp [Function.comp_def]
  have apart : ((namedValues pairs).map (·.1)).Nodup := by
    rw [names]
    exact distinct.filterMap fun a a' x h h' => h.trans h'.symm
  have visible : ∀ e ∈ namedValues pairs, s.scopes.contains scope e.1 = true := by
    intro b hb
    obtain ⟨e, he, hb⟩ := List.mem_filterMap.mp hb
    obtain ⟨x, name, visible⟩ := seen e he
    rw [name, Option.map_some] at hb
    cases hb
    exact visible
  obtain ⟨scopes, stored⟩ := Option.isSome_iff_exists.mp (ScopeStore.setAll?_isSome visible)
  refine ⟨{ s with scopes }, fun pairs' perm => ?_⟩
  refine assigns_plain (fun e he => named e (perm.mem_iff.mp he)) ?_
  rw [← stored]
  exact (ScopeStore.setAll?_perm (perm.symm.filterMap _) apart s.scopes).symm

/-! ## Elements -/

/-- An element that can be changed can be changed to something else first. -/
theorem Value.withElement_again {container key changed : Value}
    (h : container.withElement key new = .ok changed) (v : Value) :
    ∃ between, container.withElement key v = .ok between ∧
      between.withElement key new = .ok changed := by
  unfold withElement at h
  split at h
  · next entries k =>
    refine ⟨_, rfl, ?_⟩
    rw [withElement, Dictionary.insert_insert]
    exact h
  · next items n =>
    split at h
    · next there =>
      refine ⟨list (items.set n.toInt.toNat v), by rw [withElement, if_pos there], ?_⟩
      have there' : (index? (items.set n.toInt.toNat v) n).isSome := by
        rw [index?_set there, if_pos rfl]
        rfl
      rw [withElement, if_pos there', List.set_set]
      exact h
    · cases h
  · cases h

/-- The expression yields a value and has no effects, also when the variable holds something else. -/
structure Expr.YieldsApartFrom (config : Config) (scope : ScopeId) (x : Name) (k : Expr)
    (key : Value) (s : State) : Prop where
  now : Runs config (Exec.evaluate k scope) s (.ok key) s
  after : ∀ content scopes, s.scopes.set? scope x content = some scopes →
    Runs config (Exec.evaluate k scope) { s with scopes } (.ok key) { s with scopes }

variable {k : Expr} {key container updated : Value}

theorem Expr.YieldsApartFrom.set? (yields : k.YieldsApartFrom config scope x key s) {content : Value}
    {scopes : ScopeStore} (stored : s.scopes.set? scope x content = some scopes) :
    k.YieldsApartFrom config scope x key { s with scopes } where
  now := yields.after content scopes stored
  after content' scopes' stored' :=
    yields.after content' scopes' ((ScopeStore.set?_set? stored content').symm.trans stored')

/-- An element that can be combined with the operand is ready to be updated. -/
theorem runs_prepareAssign_element (compound : op.isCompound = true)
    (yields : Runs config (Exec.evaluate k scope) s (.ok key) s)
    (known : s.scopes.get? scope x = some container) (element : container.element key = .ok old)
    (applied : op.apply old v = .ok new) (changed : container.withElement key new = .ok updated) :
    Runs config (Exec.prepareAssign p op (.place q (.index (.variable x) k)) v scope) s
      (.ok (⟨x, updated⟩, new)) s := by
  have read : Runs config (Exec.readTarget (.place q (.index (.variable x) k)) scope) s (.ok old) s :=
    runs_mapError_ok_iff.mpr
      (runs_element_ok_iff.mpr ⟨container, key, known, yields, element⟩)
  have ready : Runs config (Exec.prepareTarget (.place q (.index (.variable x) k)) new scope) s
      (.ok ⟨x, updated⟩) s := by
    refine runs_mapError_ok_iff.mpr ((runs_bind_of_ok yields).mpr ?_)
    have there : Runs config ((Exec.readVariable scope x).mapError Raise.ofKind) s
        (.ok container) s :=
      runs_mapError_ok_iff.mpr (runs_readVariable_ok_iff.mpr ⟨known, rfl⟩)
    rw [runs_bind_of_ok there, changed]
    exact runs_pure_iff.mpr ⟨rfl, rfl⟩
  exact runs_prepareAssign_of_read compound read applied ready

/-- **An element accumulates.** If all targets are one element of a variable and the operator can be
applied to it and the values in order, then everything is assigned, and in the end only that element
has changed, to what the operator has made of it. -/
theorem exists_assigns_element (compound : op.isCompound = true) (nonempty : pairs ≠ [])
    (places : ∀ e ∈ pairs, ∃ q, e.1 = .place q (.index (.variable x) k))
    (yields : k.YieldsApartFrom config scope x key s)
    (known : s.scopes.get? scope x = some container) (element : container.element key = .ok old)
    (fold : (pairs.map (·.2)).foldlM op.apply old = .ok new)
    (changed : container.withElement key new = .ok updated) :
    ∃ values scopes, Assigns config p op scope pairs s values { s with scopes } ∧
      s.scopes.set? scope x updated = some scopes ∧ values.getLast? = some new := by
  induction pairs generalizing s container old with
  | nil => exact absurd rfl nonempty
  | cons e rest ih =>
      obtain ⟨target, v⟩ := e
      obtain ⟨q, rfl⟩ := places _ List.mem_cons_self
      obtain ⟨a, applied, fold⟩ := foldlM_apply_cons_iff.mp fold
      obtain ⟨between, first, again⟩ := Value.withElement_again changed a
      obtain ⟨scopes, stored⟩ := ScopeStore.exists_set? (Option.isSome_of_mem known) between
      have ready := runs_prepareAssign_element (p := p) (q := q) compound yields.now known element
        applied first
      cases rest with
      | nil =>
          cases fold
          obtain rfl := Except.ok.inj (first.symm.trans changed)
          exact ⟨[new], scopes, .cons ready stored .nil, stored, rfl⟩
      | cons e' rest =>
          obtain ⟨values, scopes', later, stored', last⟩ := @ih { s with scopes } a between
            (by simp) (fun e he => places e (List.mem_cons_of_mem _ he)) (yields.set? stored)
            (ScopeStore.get?_set?_of_same stored rfl) (Value.element_withElement first).1 fold again
          refine ⟨a :: values, scopes', .cons ready stored later, ?_, ?_⟩
          · rw [← ScopeStore.set?_set? stored]
            exact stored'
          · rw [List.getLast?_cons, last]
            rfl

end StatementEngine
