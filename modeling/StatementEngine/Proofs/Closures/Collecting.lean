import StatementEngine.Proofs.Assignment.Targets
import StatementEngine.Proofs.RangeLoop

/-!
# Loops that collect functions

**Each round of a loop over a list captures a scope of its own.** The body of such a loop adds new
functions to lists that are held by variables outside of the loop (`Collector`). Afterwards the
lists hold the functions of all rounds in order, and those of a round have captured the scope of
that round, which binds the loop variable to the element and nothing else (`Collected`).

The steps are those of the program: a collector is one assignment (`runs_collector`), a round is a
list of them (`runs_collectors`), and the loop is a list of rounds (`runs_collectingRows`).
-/

namespace StatementEngine

/-- A statement that adds a new function to a list: where it stands, which variable holds the list,
and which function it is. -/
structure Collector where
  position : Position
  target : Position
  list : Name
  literal : FunctionLiteral

/-- The list is set to itself with the function at its end. -/
def Collector.stmt (c : Collector) : Stmt :=
  ⟨c.position, .assign [.variable c.target c.list] .assign
    [.binary .add (.variable c.list) (.list [.function c.literal])]⟩

/-- The function that a literal becomes which is the next to be captured. -/
def State.nextFunction (s : State) (literal : FunctionLiteral) : Value :=
  .function (.closure s.closures.size literal.name)

variable {config : Config} {cs : List Collector} {c : Collector} {cell scope : ScopeId}
  {cx : Context} {s t u : State} {fs vs : List Value} {x : Name} {v : Value}

/-! ## One function -/

/-- A function literal captures the scope that it is evaluated in. -/
theorem runs_function {literal : FunctionLiteral} :
    Runs config (Exec.evaluate (.function literal) scope) s (.ok (s.nextFunction literal))
      { s with closures := s.closures.push ⟨literal, scope⟩ } := by
  have captured : Runs config (Exec.capture literal scope : Exec Raise Value) s
      (.ok (s.nextFunction literal)) { s with closures := s.closures.push ⟨literal, scope⟩ } :=
    runs_modifyGet_iff.mpr ⟨rfl, rfl⟩
  exact runs_evaluate_iff.mpr captured

/-- A variable that can be seen is set to a value. -/
theorem runs_assign_variable {e : Expr} {p q : Position} {scopes : ScopeStore}
    (evaluated : Runs config (Exec.evaluate e scope) s (.ok v) u)
    (stored : u.scopes.set? scope x v = some scopes) :
    Runs config (Exec.execute ⟨p, .assign [.variable q x] .assign [e]⟩ scope cx) s
      (.ok (.ofValue v)) { u with scopes } := by
  have assigns : Assigns config p .assign scope [(.variable q x, v)] u [v] { u with scopes } := by
    refine assigns_plain (by simp [Target.name?]) ?_
    show (u.scopes.set? scope x v).bind _ = _
    rw [stored]
    rfl
  have paired : assigned [Target.variable q x].length [v] = .ok [v] := rfl
  exact (runs_assignment_iff (runs_evaluateAll_singleton evaluated) paired).mpr
    (Or.inl ⟨[v], assigns, rfl⟩)

/-- A collector captures the scope that it runs in and sets the list. -/
theorem runs_collector (held : s.scopes.get? cell c.list = some (.list fs)) :
    ∃ v scopes, s.scopes.set? cell c.list (.list (fs ++ [s.nextFunction c.literal])) = some scopes ∧
      Runs config (Exec.execute c.stmt cell cx) s (.ok ⟨v, .none⟩)
        { s with scopes, closures := s.closures.push ⟨c.literal, cell⟩ } := by
  have list : Runs config (Exec.evaluate (.list [.function c.literal]) cell) s
      (.ok (.list [s.nextFunction c.literal]))
      { s with closures := s.closures.push ⟨c.literal, cell⟩ } := by
    refine runs_evaluate_iff.mpr ?_
    rw [Exec.evaluateBody, runs_bind_of_ok (runs_evaluateAll_singleton runs_function)]
    exact runs_pure_iff.mpr ⟨rfl, rfl⟩
  have joined : Runs config
      (Exec.evaluate (.binary .add (.variable c.list) (.list [.function c.literal])) cell) s
      (.ok (.list (fs ++ [s.nextFunction c.literal])))
      { s with closures := s.closures.push ⟨c.literal, cell⟩ } := by
    obtain ⟨_, list⟩ := list.asks
    exact (asks_binary (asks_variable held) list rfl).runs
  obtain ⟨scopes, stored⟩ := ScopeStore.exists_set? (by rw [held]; rfl)
    (.list (fs ++ [s.nextFunction c.literal]))
  exact ⟨_, scopes, stored, runs_assign_variable joined stored⟩

/-! ## One round -/

/-- In a scope the collectors have added their functions to the lists, as these are seen from the
scope above. -/
structure Adds (cs : List Collector) (cell scope : ScopeId) (s t : State) : Prop where
  closures : t.closures = s.closures ++ (cs.map fun c => (⟨c.literal, cell⟩ : Closure)).toArray
  lists : ∀ (j : Nat) c fs, cs[j]? = some c → s.scopes.get? scope c.list = some (.list fs) →
    t.scopes.get? scope c.list =
      some (.list (fs ++ [.function (.closure (s.closures.size + j) c.literal.name)]))
  others : ∀ n, (∀ c ∈ cs, n ≠ c.list) → t.scopes.get? scope n = s.scopes.get? scope n
  unbound : ∀ i, (∀ c ∈ cs, s.scopes.local? i c.list = none) → t.scopes.scope? i = s.scopes.scope? i
  size : t.scopes.scopes.size = s.scopes.scopes.size
  rest : t = { s with scopes := t.scopes, closures := t.closures }

namespace Adds

variable {k j : Nat} {d : Closure}

theorem kept (adds : Adds cs cell scope s t) (known : s.closures[k]? = some d) :
    t.closures[k]? = some d := by
  obtain ⟨inside, -⟩ := Array.getElem?_eq_some_iff.mp known
  rw [adds.closures, Array.getElem?_append_left inside, known]

theorem count (adds : Adds cs cell scope s t) :
    t.closures.size = s.closures.size + cs.length := by
  simp [adds.closures]

theorem captured (adds : Adds cs cell scope s t) (at_j : cs[j]? = some c) :
    t.closures[s.closures.size + j]? = some ⟨c.literal, cell⟩ := by
  rw [adds.closures, Array.getElem?_append_right (Nat.le_add_right _ _), Nat.add_sub_cancel_left,
    List.getElem?_toArray, List.getElem?_map, at_j]
  rfl

theorem only (adds : Adds cs cell scope s t) (known : t.closures[k]? = some d) :
    s.closures[k]? = some d ∨
      ∃ j c, cs[j]? = some c ∧ k = s.closures.size + j ∧ d = ⟨c.literal, cell⟩ := by
  rw [adds.closures] at known
  rcases Nat.lt_or_ge k s.closures.size with inside | new
  · rw [Array.getElem?_append_left inside] at known
    exact Or.inl known
  · rw [Array.getElem?_append_right new, List.getElem?_toArray, List.getElem?_map,
      Option.map_eq_some_iff] at known
    obtain ⟨c, at_j, rfl⟩ := known
    exact Or.inr ⟨_, c, at_j, (Nat.add_sub_cancel' new).symm, rfl⟩

end Adds

/-- What one collector does before the others. -/
theorem Adds.cons {scopes : ScopeStore} (bound : s.scopes.get? scope c.list = some (.list fs))
    (above : s.scopes.definer? cell c.list = s.scopes.definer? scope c.list)
    (stored : s.scopes.set? cell c.list (.list (fs ++ [s.nextFunction c.literal])) = some scopes)
    (new : ∀ d ∈ cs, c.list ≠ d.list)
    (adds : Adds cs cell scope
      { s with scopes, closures := s.closures.push ⟨c.literal, cell⟩ } t) :
    Adds (c :: cs) cell scope s t where
  closures := by
    rw [adds.closures]
    simp
  lists j d fs' at_j held := by
    cases j with
    | zero =>
        obtain rfl := Option.some.inj at_j
        obtain rfl : fs' = fs := by simpa [bound] using held.symm
        rw [adds.others c.list new]
        exact ScopeStore.get?_set?_of_same stored above.symm
    | succ j =>
        have inside : d ∈ cs := List.mem_of_getElem? at_j
        have held' : scopes.get? scope d.list = some (.list fs') := by
          rw [ScopeStore.get?_set?_of_other stored fun same => new d inside same.1.symm, held]
        have added := adds.lists j d fs' at_j held'
        rw [Array.size_push] at added
        rw [added, Nat.add_right_comm, Nat.add_assoc]
  others n other := by
    obtain ⟨here, later⟩ := List.forall_mem_cons.mp other
    rw [adds.others n later]
    exact ScopeStore.get?_set?_of_other stored fun same => here same.1
  unbound i free := by
    obtain ⟨here, later⟩ := List.forall_mem_cons.mp free
    have kept : scopes.scope? i = s.scopes.scope? i := by
      obtain ⟨d, found, rfl⟩ := ScopeStore.set?_eq_some_iff.mp stored
      rw [ScopeStore.scope?_define, if_neg]
      rintro rfl
      simpa [here] using (ScopeStore.definer?_eq_some_iff.mp found).2
    rw [adds.unbound i fun d hd => by
      rw [ScopeStore.local?_congr kept, later d hd]]
    exact kept
  size := by
    obtain ⟨d, found, rfl⟩ := ScopeStore.set?_eq_some_iff.mp stored
    rw [adds.size]
    exact ScopeStore.size_define ..
  rest := by
    rw [adds.rest]

/-- The statements of a round run one after the other. -/
theorem runs_collectors (awake : s.stopRequested = false) (distinct : (cs.map (·.list)).Nodup)
    (held : ∀ c ∈ cs, ∃ fs, s.scopes.get? scope c.list = some (.list fs))
    (above : s.scopes.parent? cell = some scope)
    (free : ∀ c ∈ cs, s.scopes.local? cell c.list = none) (last : Option Value) :
    ∃ v t, Runs config (Exec.runFrom cell cx (cs.map Collector.stmt) last) s (.ok ⟨v, .none⟩) t ∧
      Adds cs cell scope s t := by
  induction cs generalizing s last with
  | nil =>
      refine ⟨last, s, runs_pure_iff.mpr ⟨rfl, rfl⟩, ?_⟩
      exact ⟨by simp, by simp, fun _ _ => rfl, fun _ _ => rfl, rfl, rfl⟩
  | cons c cs ih =>
      obtain ⟨new, distinct⟩ := List.nodup_cons.mp distinct
      obtain ⟨⟨fs, bound⟩, held⟩ := List.forall_mem_cons.mp held
      obtain ⟨here, free⟩ := List.forall_mem_cons.mp free
      have new : ∀ d ∈ cs, c.list ≠ d.list := fun d hd same =>
        new (List.mem_map.mpr ⟨d, hd, same.symm⟩)
      have seen : s.scopes.get? cell c.list = some (.list fs) :=
        (ScopeStore.get?_of_unbound here above).trans bound
      obtain ⟨v, scopes, stored, run⟩ : ∃ v scopes, s.scopes.set? cell c.list _ = some scopes ∧
          Runs config (Exec.execute c.stmt cell cx) s (.ok ⟨v, .none⟩) _ := runs_collector seen
      -- after the first collector everything that the others need is as before
      have held' : ∀ d ∈ cs, ∃ fs, scopes.get? scope d.list = some (.list fs) := by
        intro d hd
        obtain ⟨fs', bound'⟩ := held d hd
        refine ⟨fs', ?_⟩
        rw [ScopeStore.get?_set?_of_other stored fun same => new d hd same.1.symm, bound']
      have above' : scopes.parent? cell = some scope := by
        obtain ⟨d, -, rfl⟩ := ScopeStore.set?_eq_some_iff.mp stored
        rw [ScopeStore.parent?_define, above]
      have free' : ∀ d ∈ cs, scopes.local? cell d.list = none := by
        intro d hd
        rw [ScopeStore.local?_set? stored, if_neg fun same => new d hd same.2.symm]
        exact free d hd
      obtain ⟨v', t, later, adds⟩ := @ih
        { s with scopes, closures := s.closures.push ⟨c.literal, cell⟩ } awake distinct held' above'
        free' (v.or last)
      refine ⟨v', t, (runs_runFrom_cons_of_normal awake run).mpr later, ?_⟩
      refine adds.cons bound ?_ stored new
      exact ScopeStore.FreePath.definer? (.up here above .here)

/-! ## All rounds -/

/-- A loop over a list has run the collectors once for each element. The rounds have had new scopes
in order, and the functions are numbered in the order in which they have been captured. -/
structure Collected (cs : List Collector) (x : Name) (scope : ScopeId) (vs : List Value)
    (s t : State) : Prop where
  /-- The scope of a round binds the loop variable to the element. -/
  cells : ∀ (i : Nat) v, vs[i]? = some v →
    t.scopes.scope? ⟨s.scopes.scopes.size + i⟩ = some ⟨some scope, [(x, v)]⟩
  /-- The lists hold the functions of all rounds. -/
  lists : ∀ (j : Nat) c fs, cs[j]? = some c → s.scopes.get? scope c.list = some (.list fs) →
    t.scopes.get? scope c.list = some (.list (fs ++ (List.range vs.length).map fun i =>
      .function (.closure (s.closures.size + i * cs.length + j) c.literal.name)))
  kept : ∀ (k : Nat) d, s.closures[k]? = some d → t.closures[k]? = some d
  /-- The functions of a round have captured its scope. -/
  captured : ∀ (i j : Nat) c, i < vs.length → cs[j]? = some c →
    t.closures[s.closures.size + i * cs.length + j]? =
      some ⟨c.literal, ⟨s.scopes.scopes.size + i⟩⟩
  /-- No other functions have been captured. -/
  only : ∀ (k : Nat) d, t.closures[k]? = some d → s.closures[k]? = some d ∨
    ∃ (i j : Nat) (c : Collector), i < vs.length ∧ cs[j]? = some c ∧
      k = s.closures.size + i * cs.length + j ∧ d = ⟨c.literal, ⟨s.scopes.scopes.size + i⟩⟩
  unbound : ∀ i, i.index < s.scopes.scopes.size → (∀ c ∈ cs, s.scopes.local? i c.list = none) →
    t.scopes.scope? i = s.scopes.scope? i
  size : t.scopes.scopes.size = s.scopes.scopes.size + vs.length
  rest : t = { s with scopes := t.scopes, closures := t.closures }

/-- The scope of a round holds the element. -/
theorem scope?_iterating (there : scope.index < s.scopes.scopes.size) (x : Name) (v : Value) :
    (s.iterating scope [x] [v]).2.scopes.scope? (s.iterating scope [x] [v]).1
      = some ⟨some scope, [(x, v)]⟩ := by
  show ((s.scopes.add (some scope)).define s.scopes.next x v).scope? s.scopes.next = _
  rw [ScopeStore.scope?_define, if_pos rfl, ScopeStore.scope?_add, if_pos rfl]
  simp [there, Scope.bind, bindName]

theorem scope?_iterating_of_lt {row : List Value} {vars : List Name} {i : ScopeId}
    (inside : i.index < s.scopes.scopes.size) :
    (s.iterating scope vars row).2.scopes.scope? i = s.scopes.scope? i := by
  refine ScopeStore.scope?_framed_of_ne ?_
  rintro rfl
  exact Nat.lt_irrefl _ inside

/-- A scope with one name binds that name only. -/
theorem ScopeStore.local?_of_single {store : ScopeStore} {p : Option ScopeId}
    (known : store.scope? cell = some ⟨p, [(x, v)]⟩) (n : Name) :
    store.local? cell n = if x = n then some v else none := by
  rw [local?_eq, known]
  rfl

/-- A round and the rounds after it. -/
theorem Collected.cons (there : scope.index < s.scopes.scopes.size) (other : ∀ c ∈ cs, c.list ≠ x)
    (adds : Adds cs s.scopes.next scope (s.iterating scope [x] [v]).2 u)
    (collected : Collected cs x scope vs u t) : Collected cs x scope (v :: vs) s t := by
  have size : u.scopes.scopes.size = s.scopes.scopes.size + 1 :=
    adds.size.trans ScopeStore.size_framed
  have number : ∀ i j, u.closures.size + i * cs.length + j
      = s.closures.size + (i + 1) * cs.length + j := by
    intro i j
    have count : u.closures.size = s.closures.size + cs.length := adds.count
    rw [count, Nat.succ_mul]
    omega
  have place : ∀ i, u.scopes.scopes.size + i = s.scopes.scopes.size + (i + 1) := by
    intro i
    rw [size]
    omega
  have old : ∀ i : ScopeId, i.index < s.scopes.scopes.size →
      (s.iterating scope [x] [v]).2.scopes.scope? i = s.scopes.scope? i :=
    fun _ => scope?_iterating_of_lt
  have unbound : ∀ i : ScopeId, i.index < s.scopes.scopes.size →
      (∀ c ∈ cs, s.scopes.local? i c.list = none) → u.scopes.scope? i = s.scopes.scope? i := by
    intro i inside free
    rw [adds.unbound i fun c hc => ?_, old i inside]
    rw [ScopeStore.local?_congr (old i inside), free c hc]
  -- the scope of the round binds none of the lists, so it stays as it is
  have own := scope?_iterating there x v
  have own' : u.scopes.scope? s.scopes.next = some ⟨some scope, [(x, v)]⟩ :=
    (adds.unbound _ fun c hc =>
      (ScopeStore.local?_of_single own c.list).trans (if_neg (other c hc).symm)).trans own
  refine {
    cells := fun i w at_i => ?_
    lists := fun j c fs at_j held => ?_
    kept := fun k d known => collected.kept k d (adds.kept known)
    captured := fun i j c inside at_j => ?_
    only := fun k d known => ?_
    unbound := fun i inside free => ?_
    size := ?_
    rest := ?_ }
  · cases i with
    | zero =>
        obtain rfl := Option.some.inj at_i
        rw [← own']
        refine collected.unbound _ ?_ fun c hc => ?_
        · rw [size]
          exact Nat.lt_succ_self _
        · exact (ScopeStore.local?_of_single own' c.list).trans (if_neg (other c hc).symm)
    | succ i =>
        have later := collected.cells i w at_i
        rwa [place] at later
  · have held' : (s.iterating scope [x] [v]).2.scopes.get? scope c.list = some (.list fs) := by
      rw [ScopeStore.get?_of_extended old there, held]
    have first := adds.lists j c fs at_j held'
    have zero : s.closures.size + j = s.closures.size + 0 * cs.length + j := by simp
    rw [collected.lists j c _ at_j first, List.length_cons, List.range_succ_eq_map]
    simp only [number, List.map_cons, List.map_map, Function.comp_def, List.append_assoc,
      List.singleton_append, ← zero]
    rfl
  · cases i with
    | zero =>
        rw [Nat.zero_mul, Nat.add_zero]
        exact collected.kept _ _ (adds.captured at_j)
    | succ i =>
        have later := collected.captured i j c (Nat.lt_of_succ_lt_succ inside) at_j
        rwa [number, place] at later
  · rcases collected.only k d known with known | ⟨i, j, c, inside, at_j, rfl, rfl⟩
    · rcases adds.only known with known | ⟨j, c, at_j, rfl, rfl⟩
      · exact Or.inl known
      · refine Or.inr ⟨0, j, c, Nat.succ_pos _, at_j, ?_, rfl⟩
        rw [Nat.zero_mul, Nat.add_zero]
        rfl
    · refine Or.inr ⟨i + 1, j, c, Nat.succ_lt_succ inside, at_j, number i j, ?_⟩
      rw [place]
  · have free' : ∀ c ∈ cs, u.scopes.local? i c.list = none := by
      intro c hc
      rw [ScopeStore.local?_congr (unbound i inside free), free c hc]
    rw [collected.unbound i (by omega) free', unbound i inside free]
  · rw [collected.size, place, List.length_cons]
  · rw [collected.rest, adds.rest]
    rfl

/-- The loop runs the collectors once for each element. -/
theorem runs_collectingRows (there : scope.index < s.scopes.scopes.size)
    (awake : s.stopRequested = false) (distinct : (cs.map (·.list)).Nodup)
    (other : ∀ c ∈ cs, c.list ≠ x)
    (held : ∀ c ∈ cs, ∃ fs, s.scopes.get? scope c.list = some (.list fs)) :
    ∃ t, Runs config (Exec.runRows [x] (cs.map Collector.stmt) scope cx (vs.map ([·]))) s
        (.ok .empty) t ∧ Collected cs x scope vs s t := by
  induction vs generalizing s with
  | nil =>
      refine ⟨s, runs_pure_iff.mpr ⟨rfl, rfl⟩, ?_⟩
      exact ⟨by simp, by simp, fun _ _ h => h, by simp, fun _ _ h => Or.inl h, fun _ _ _ => rfl,
        rfl, rfl⟩
  | cons v vs ih =>
      have held' : ∀ c ∈ cs, ∃ fs,
          (s.iterating scope [x] [v]).2.scopes.get? scope c.list = some (.list fs) := by
        intro c hc
        obtain ⟨fs, bound⟩ := held c hc
        refine ⟨fs, ?_⟩
        rw [ScopeStore.get?_of_extended (fun _ => scope?_iterating_of_lt) there, bound]
      have free : ∀ c ∈ cs,
          (s.iterating scope [x] [v]).2.scopes.local? s.scopes.next c.list = none := fun c hc =>
        (ScopeStore.local?_of_single (scope?_iterating there x v) c.list).trans
          (if_neg (other c hc).symm)
      have entered : (s.iterating scope [x] [v]).2.stopRequested = false := awake
      obtain ⟨value, u, round, adds⟩ : ∃ value u, Runs config (Exec.runFrom s.scopes.next cx
          (cs.map Collector.stmt) none) (s.iterating scope [x] [v]).2 (.ok ⟨value, .none⟩) u ∧
          Adds cs s.scopes.next scope (s.iterating scope [x] [v]).2 u :=
        runs_collectors entered distinct held' (ScopeStore.parent?_framed there) free none
      have there' : scope.index < u.scopes.scopes.size := by
        rw [adds.size]
        exact Nat.lt_of_lt_of_eq (Nat.lt_succ_of_lt there) ScopeStore.size_framed.symm
      have awake' : u.stopRequested = false := by
        rw [adds.rest]
        exact awake
      obtain ⟨t, later, collected⟩ := ih there' awake' fun c hc => by
        obtain ⟨fs, bound⟩ := held' c hc
        obtain ⟨j, at_j⟩ := List.mem_iff_getElem?.mp hc
        exact ⟨_, adds.lists j c fs at_j bound⟩
      refine ⟨t, ?_, collected.cons there other adds⟩
      rw [List.map_cons, Runs, Exec.runRows_cons awake]
      exact (runs_bind_of_ok (runs_failing_ok_iff.mpr (runs_block_iff.mpr round))).mpr later

/-- **A loop over a list that collects functions** ends normally, and leaves the functions of all
elements behind. -/
theorem runs_collectingLoop {e : Expr} {p : Position}
    (evaluated : Runs config (Exec.evaluate e scope) s (.ok (.list vs)) u)
    (there : scope.index < u.scopes.scopes.size) (awake : u.stopRequested = false)
    (distinct : (cs.map (·.list)).Nodup) (other : ∀ c ∈ cs, c.list ≠ x)
    (held : ∀ c ∈ cs, ∃ fs, u.scopes.get? scope c.list = some (.list fs)) :
    ∃ t, Runs config (Exec.execute ⟨p, .forIn [x] e (cs.map Collector.stmt)⟩ scope cx) s
        (.ok .empty) t ∧ Collected cs x scope vs u t := by
  obtain ⟨t, run, collected⟩ := runs_collectingRows there awake distinct other held
  refine ⟨t, runs_execute_iff.mpr (runs_located_ok_iff.mpr (Or.inl ?_)), collected⟩
  exact (runs_bind_of_ok evaluated).mpr run

end StatementEngine
