import StatementEngine.Proofs.Pairing.Calls
import StatementEngine.Proofs.Scope.Reach

/-!
# A script only touches what it can reach

**Scopes that are out of reach at the start are neither read nor written.** A run leaves them as
they are, and it is the same whatever is in them: two states that only differ there lead to the same
outcome and to states that only differ there.

Both are one invariant of two runs, a `Pairing`: the scopes that may be touched are those in reach
at the start and those that are made during the run (`State.Touchable`), and neither run ever gets
hold of another one. What a function can be met at all is fixed at the start as well
(`State.Meets`): it is quiet, or it has been captured in a scope that may be touched.

The main result is `script_isolated`. It is about functions of the host that touch no scope, so
nobody runs queued tasks meanwhile, and about code whose literals hold no captured functions: such a
literal would reach a scope that no variable leads to.
-/

namespace StatementEngine

namespace State

/-- The scope was in reach at the start, or has been made since. -/
def Touchable (s : State) (start i : ScopeId) : Prop :=
  s.InReach start i ∨ s.scopes.scopes.size ≤ i.index

/-- The code of the captured function may run, in a scope that may be touched. -/
def Admits (s : State) (start : ScopeId) (R : Rule) (c : Closure) : Prop :=
  s.Touchable start c.scope ∧ BlockObeys R .function c.literal.body

/-- The function may be met in a run: it is one of the host that touches no scope, or one whose code
may run, or one that has been captured since. -/
def Meets (s : State) (start : ScopeId) : FunctionRef → Prop
  | .closure k _ =>
    ∀ c ∈ s.closures[k]?, s.Admits start (.literals FunctionRef.IsQuiet) c
  | f => f.IsQuiet

end State

/-- The rule for the code that runs. -/
def State.code (s : State) (start : ScopeId) : Rule := .literals (s.Meets start)

/-- The heaps have come from those of two states that agree on the scopes in reach. Wherever a run
may get to, they are the same, and nothing leads from there to anywhere else. -/
structure Isolated (s s' : State) (start : ScopeId) (h h' : Heap) : Prop where
  closures : h'.closures = h.closures
  modules : h'.modules = h.modules
  size : h'.scopes.scopes.size = h.scopes.scopes.size
  grown : s.scopes.scopes.size ≤ h.scopes.scopes.size
  kept : ∀ k, k < s.closures.size → h.closures[k]? = s.closures[k]?
  captured : s.closures.size ≤ h.closures.size
  made : ∀ k c, s.closures.size ≤ k → h.closures[k]? = some c → s.Admits start (s.code start) c
  module : ∀ name i, h.modules.find? name = some i → s.Touchable start i
  same : ∀ i, s.Touchable start i → h'.scopes.scope? i = h.scopes.scope? i
  parent : ∀ i p, s.Touchable start i → h.scopes.parent? i = some p → s.Touchable start p
  bound : ∀ i name v, s.Touchable start i → h.scopes.local? i name = some v →
    v.Only (s.Meets start)
  outside : ∀ i, ¬ s.Touchable start i →
    h.scopes.scope? i = s.scopes.scope? i ∧ h'.scopes.scope? i = s'.scopes.scope? i

variable {s s' : State} {start i : ScopeId} {h h' : Heap}

theorem FunctionRef.IsQuiet.meets {f : FunctionRef} (quiet : f.IsQuiet) : s.Meets start f := by
  cases f with
  | closure k name => exact quiet.elim
  | host | recorder | builtin => exact quiet

theorem BlockObeys.meets {body : Block} {site : Site}
    (obeys : BlockObeys (.literals FunctionRef.IsQuiet) site body) :
    BlockObeys (s.code start) site body := by
  intro stmt hstmt
  refine (obeys stmt hstmt).mono (fun e literal v hv => ?_) fun _ _ _ => trivial
  exact (literal v hv).mono fun f quiet => quiet.meets

namespace Isolated

/-! ## At the start -/

/-- What a variable in reach holds may be met. -/
theorem meets_of_reach (quiet : s.QuietFrom start) {name : Name} {v : Value}
    (reached : s.InReach start i) (bound : s.scopes.local? i name = some v) :
    v.Only (s.Meets start) := by
  intro f holds
  have known := quiet i name v reached bound f holds
  cases f with
  | closure k shown =>
      exact fun c captured => ⟨Or.inl (.closure reached bound holds captured), known c captured⟩
  | host | recorder | builtin => exact known

theorem atStart (agree : s.AgreeOn (s.InReach start) s') (quiet : s.QuietFrom start) :
    Isolated s s' start s.heap s'.heap where
  closures := agree.closures
  modules := agree.modules
  size := agree.size
  grown := Nat.le_refl _
  kept _ _ := rfl
  captured := Nat.le_refl _
  made k c outside known := by
    rw [show s.heap.closures = s.closures from rfl, Array.getElem?_eq_none outside] at known
    cases known
  module name i registered := Or.inl (.module registered)
  same i touchable := by
    rcases touchable with reached | new
    · exact agree.same i reached
    · have absent : s.scopes.scope? i = none := ScopeStore.scope?_of_le new
      have absent' : s'.scopes.scope? i = none := ScopeStore.scope?_of_le (agree.size ▸ new)
      exact absent'.trans absent.symm
  parent i p touchable above := by
    rcases touchable with reached | new
    · exact Or.inl (.parent reached above)
    · have absent : s.scopes.scope? i = none := ScopeStore.scope?_of_le new
      rw [show s.heap.scopes = s.scopes from rfl, ScopeStore.parent?_eq, absent] at above
      cases above
  bound i name v touchable bound := by
    rcases touchable with reached | new
    · exact meets_of_reach quiet reached bound
    · have absent : s.scopes.scope? i = none := ScopeStore.scope?_of_le new
      rw [show s.heap.scopes = s.scopes from rfl, ScopeStore.local?_eq, absent] at bound
      cases bound
  outside i _ := ⟨rfl, rfl⟩

/-! ## What is found -/

theorem parent? (isolated : Isolated s s' start h h') (touchable : s.Touchable start i) :
    h'.scopes.parent? i = h.scopes.parent? i := by
  rw [ScopeStore.parent?_eq, isolated.same i touchable, ← ScopeStore.parent?_eq]

theorem local? (isolated : Isolated s s' start h h') (touchable : s.Touchable start i)
    (name : Name) : h'.scopes.local? i name = h.scopes.local? i name := by
  rw [ScopeStore.local?_eq, isolated.same i touchable, ← ScopeStore.local?_eq]

/-- The search for a name goes through scopes that may be touched. -/
theorem definerWithin (isolated : Isolated s s' start h h') (name : Name) (steps : Nat)
    (touchable : s.Touchable start i) :
    h'.scopes.definerWithin name steps i = h.scopes.definerWithin name steps i ∧
      ∀ d ∈ h.scopes.definerWithin name steps i, s.Touchable start d := by
  induction steps generalizing i with
  | zero => exact ⟨rfl, fun _ hd => by cases hd⟩
  | succ steps ih =>
      unfold ScopeStore.definerWithin
      rw [isolated.local? touchable, isolated.parent? touchable]
      split
      · exact ⟨rfl, fun d hd => Option.some.inj hd ▸ touchable⟩
      · split
        · next p above => exact ih (isolated.parent i p touchable above)
        · exact ⟨rfl, fun _ hd => by cases hd⟩

/-! ## Steps -/

theorem next (isolated : Isolated s s' start h h') : h'.scopes.next = h.scopes.next :=
  congrArg ScopeId.mk isolated.size

theorem touchable_next (isolated : Isolated s s' start h h') : s.Touchable start h.scopes.next :=
  Or.inr isolated.grown

theorem newChild (isolated : Isolated s s' start h h') (touchable : s.Touchable start i) :
    Isolated s s' start (h.newChild i) (h'.newChild i) :=
  { isolated with
    size := by simp [Heap.newChild, ScopeStore.add, isolated.size]
    grown := by
      have grown := isolated.grown
      simp only [Heap.newChild, ScopeStore.add, Array.size_push]
      omega
    same j hj := by
      simp only [Heap.newChild, ScopeStore.scope?_add, isolated.next, isolated.size,
        isolated.same j hj]
    parent j p hj above := by
      simp only [Heap.newChild, ScopeStore.parent?_eq, ScopeStore.scope?_add] at above
      split at above
      · -- the new scope stands below the one that it is made for
        rw [Option.bind_some, Option.filter_eq_some_iff] at above
        obtain rfl := Option.some.inj above.1
        exact touchable
      · exact isolated.parent j p hj ((ScopeStore.parent?_eq _ j).trans above)
    bound j name v hj bound := by
      simp only [Heap.newChild, ScopeStore.local?_eq, ScopeStore.scope?_add] at bound
      split at bound
      · cases bound
      · exact isolated.bound j name v hj ((ScopeStore.local?_eq _ j name).trans bound)
    outside j hj := by
      have old : j ≠ h.scopes.next := by
        rintro rfl
        exact hj isolated.touchable_next
      simp only [Heap.newChild, ScopeStore.scope?_add, isolated.next, if_neg old]
      exact isolated.outside j hj }

theorem define (isolated : Isolated s s' start h h') (touchable : s.Touchable start i)
    (name : Name) {v : Value} (only : v.Only (s.Meets start)) :
    Isolated s s' start (h.define i name v) (h'.define i name v) :=
  { isolated with
    size := by simp [Heap.define, ScopeStore.define, ScopeStore.change, isolated.size]
    grown := by simpa [Heap.define, ScopeStore.define, ScopeStore.change] using isolated.grown
    same j hj := by
      simp only [Heap.define, ScopeStore.scope?_define, isolated.same j hj]
    parent j p hj above := by
      refine isolated.parent j p hj ?_
      simp only [Heap.define, ScopeStore.parent?_eq, ScopeStore.scope?_define] at above ⊢
      split at above
      · simpa [Option.bind_map, Function.comp_def] using above
      · exact above
    bound j n w hj bound := by
      simp only [Heap.define, ScopeStore.local?_eq, ScopeStore.scope?_define] at bound
      split at bound
      · -- the scope holds the new value under the name, and what it held before otherwise
        obtain ⟨scope, made, bound⟩ := Option.bind_eq_some_iff.mp bound
        obtain ⟨before, was, rfl⟩ := Option.map_eq_some_iff.mp made
        rw [Scope.local?, Scope.bind, boundValue?_bindName] at bound
        split at bound
        · cases bound
          exact only
        · refine isolated.bound j n w hj ((ScopeStore.local?_eq _ j n).trans ?_)
          exact Option.bind_eq_some_iff.mpr ⟨before, was, bound⟩
      · exact isolated.bound j n w hj ((ScopeStore.local?_eq _ j n).trans bound)
    outside j hj := by
      have other : i ≠ j := by
        rintro rfl
        exact hj touchable
      simp only [Heap.define, ScopeStore.scope?_define, if_neg other]
      exact isolated.outside j hj }

theorem capture (isolated : Isolated s s' start h h') (touchable : s.Touchable start i)
    {literal : FunctionLiteral} (obeys : BlockObeys (s.code start) .function literal.body) :
    Isolated s s' start (h.capture literal i) (h'.capture literal i) :=
  { isolated with
    closures := by simp only [Heap.capture, isolated.closures]
    kept k old := by
      have there : k < h.closures.size := Nat.lt_of_lt_of_le old isolated.captured
      rw [Heap.capture, Array.getElem?_push_lt there, ← Array.getElem?_eq_getElem there]
      exact isolated.kept k old
    captured := by
      have captured := isolated.captured
      simp only [Heap.capture, Array.size_push]
      omega
    made k c new known := by
      rw [Heap.capture, Array.getElem?_push] at known
      split at known
      · cases known
        exact ⟨touchable, obeys⟩
      · exact isolated.made k c new known }

theorem register (isolated : Isolated s s' start h h') (touchable : s.Touchable start i)
    (name : Name) : Isolated s s' start (h.register name i) (h'.register name i) :=
  { isolated with
    modules := by simp only [Heap.register, isolated.modules]
    module n j registered := by
      rw [Heap.register, Registry.find?_register] at registered
      split at registered
      · cases registered
        exact touchable
      · exact isolated.module n j registered }

/-- A function that may be met is the same in both heaps. -/
theorem known (isolated : Isolated s s' start h h') {k : Nat} {name : String}
    (met : s.Meets start (.closure k name)) :
    ∀ c ∈ h.closures[k]?, s.Admits start (s.code start) c := by
  intro c hc
  rcases Nat.lt_or_ge k s.closures.size with old | new
  · rw [isolated.kept k old] at hc
    obtain ⟨touchable, obeys⟩ := met c hc
    exact ⟨touchable, obeys.meets⟩
  · exact isolated.made k c new hc

end Isolated

/-- The pairing of two runs from states that agree on the scopes in reach. -/
def isolation (s s' : State) (start : ScopeId) : Pairing where
  scope _ i i' := i' = i ∧ s.Touchable start i
  own _ i i' := i' = i ∧ s.Touchable start i
  fn := s.Meets start
  heap := Isolated s s' start
  scope_of_own paired := paired
  scope_mono _ paired := paired
  own_mono _ paired := paired
  newChild isolated paired := by
    obtain ⟨rfl, touchable⟩ := paired
    exact ⟨isolated.newChild touchable, isolated.next, isolated.touchable_next⟩
  define name v isolated paired only := by
    obtain ⟨rfl, touchable⟩ := paired
    exact isolated.define touchable name only
  definer {h h' i i'} name isolated paired := by
    obtain ⟨rfl, touchable⟩ := paired
    obtain ⟨same, there⟩ := isolated.definerWithin name (i'.index + 1) touchable
    rw [ScopeStore.definer?, ScopeStore.definer?, same]
    cases found : h.scopes.definerWithin name (i'.index + 1) i' with
    | none => exact .none
    | some d => exact .some ⟨rfl, there d found⟩
  bound name isolated paired := by
    obtain ⟨rfl, touchable⟩ := paired
    exact ⟨isolated.local? touchable name, fun v => isolated.bound _ name v touchable⟩
  capture literal isolated paired obeys := by
    obtain ⟨rfl, touchable⟩ := paired
    refine ⟨isolated.capture touchable obeys, congrArg Array.size isolated.closures, ?_⟩
    intro c hc
    rw [Array.getElem?_eq_none isolated.captured] at hc
    cases hc
  captured {h h'} k name isolated met := by
    rw [isolated.closures]
    cases captured : h.closures[k]? with
    | none => exact .none
    | some c =>
        obtain ⟨touchable, obeys⟩ := isolated.known met c captured
        exact .some ⟨rfl, ⟨rfl, touchable⟩, obeys⟩
  register name isolated paired := by
    obtain ⟨rfl, touchable⟩ := paired
    exact isolated.register touchable name
  module {h h'} name isolated := by
    rw [isolated.modules]
    cases registered : h.modules.find? name with
    | none => exact .none
    | some i => exact .some ⟨rfl, isolated.module name i registered⟩
  eager meets := meets.elim

/-! ## Whole runs -/

/-- The scopes that were there and not in reach are as they were. -/
def State.LeavesAlone (s : State) (start : ScopeId) (t : State) : Prop :=
  ∀ i a, s.scopes.scope? i = some a → ¬ s.InReach start i → t.scopes.scope? i = some a

theorem State.AgreeOn.refl (among : ScopeId → Prop) (s : State) : s.AgreeOn among s :=
  ⟨rfl, rfl, fun _ _ => rfl⟩

variable {config : Config} {script : Block} {t t' : State} {o : Outcome EngineError Execution}

theorem isolation_runScript (code : BlockObeys (.literals FunctionRef.IsQuiet) .function script) :
    Exec.PairsError (isolation s s' start) 0 (fun _ => True) (Exec.runScript config script start)
      (Exec.runScript config script start) :=
  Exec.pairs_runScript code.meets ⟨rfl, Or.inl .start⟩

theorem isolation_twin (agree : s.AgreeOn (s.InReach start) s') (quiet : s.QuietFrom start) :
    (isolation s s' start).Twin 0 s s' := by
  have paired : (isolation s s' start).Twin 0 s (s.withHeap s'.heap) :=
    .intro s'.heap (Isolated.atStart agree quiet) (Nat.zero_le _)
  have same : s.withHeap s'.heap = s' := by
    rw [agree.rest]
    rfl
  rwa [same] at paired

/-- States that are paired at the end agree on all scopes that have been in reach and all that are
new. -/
theorem agreeOn_of_twin (twin : (isolation s s' start).Twin 0 t t') :
    t.AgreeOn (s.Touchable start) t' := by
  cases twin with
  | intro h' isolated _ =>
      have rest : t.withHeap h' = { t with scopes := h'.scopes } := by
        rw [State.withHeap, isolated.closures, isolated.modules]
        rfl
      exact ⟨rest, isolated.size, isolated.same⟩

theorem leavesAlone_of_twin (twin : (isolation s s' start).Twin 0 t t') : s.LeavesAlone start t := by
  cases twin with
  | intro h' isolated _ =>
      intro i a there apart
      have old : i.index < s.scopes.scopes.size := ScopeStore.lt_of_scope? there
      have outside : ¬ s.Touchable start i := not_or.mpr ⟨apart, Nat.not_le_of_lt old⟩
      exact (isolated.outside i outside).1.trans there

/-- **A script touches only what it can reach.** A run leaves every scope that is there and out of
reach exactly as it was. If another state differs only in the contents of such scopes, then the
script has an end from there exactly if it has one from here; the outcome is the same, and so is all
of the state but the contents of these scopes: what has been recorded, the modules, the queue, the
captured functions, and the scopes that were in reach or have been made. -/
theorem script_isolated (config : Config) {script : Block} {start : ScopeId} {s : State}
    (code : BlockObeys (.literals FunctionRef.IsQuiet) .function script)
    (quiet : s.QuietFrom start) :
    (∀ o t, Runs config (Exec.runScript config script start) s o t → s.LeavesAlone start t) ∧
    ∀ s', s.AgreeOn (s.InReach start) s' →
      (∀ o t, Runs config (Exec.runScript config script start) s o t →
        ∃ t', Runs config (Exec.runScript config script start) s' o t' ∧
          t.AgreeOn (s.Touchable start) t') ∧
      ∀ o t', Runs config (Exec.runScript config script start) s' o t' →
        ∃ t, Runs config (Exec.runScript config script start) s o t ∧
          t.AgreeOn (s.Touchable start) t' := by
  refine ⟨fun o t run => ?_, fun s' agree => ⟨fun o t run => ?_, fun o t' run => ?_⟩⟩
  · have twin := isolation_twin (.refl _ s) quiet
    obtain ⟨t', -, twin⟩ := (isolation_runScript code).runs twin run
    exact leavesAlone_of_twin twin
  · obtain ⟨t', run', twin⟩ := (isolation_runScript code).runs (isolation_twin agree quiet) run
    exact ⟨t', run', agreeOn_of_twin twin⟩
  · obtain ⟨t, run', twin⟩ := (isolation_runScript code).runs_left (isolation_twin agree quiet) run
    exact ⟨t, run', agreeOn_of_twin twin⟩

/-- A script calls a function that changes the scope that it has captured. A third scope holds a
secret that makes no difference and that stays. -/
theorem script_isolated_secret :
    let f : FunctionLiteral := ⟨"f", [], [⟨⟨1, 1⟩, .expr (.set "x" (.literal (.int 5)))⟩]⟩
    let script : Block := [⟨⟨2, 1⟩, .expr (.call (.variable "f") [])⟩]
    let s (secret : Int64) : State :=
      { State.initial .deferred .log with
        closures := #[⟨f, ⟨1⟩⟩]
        scopes := ((((ScopeStore.empty.add none).add none).add none).define ⟨0⟩ "f"
          (.function (.closure 0 "f"))).define ⟨1⟩ "x" (.int 0)
            |>.define ⟨2⟩ "secret" (.int secret) }
    ∃ t t', Runs .standard (Exec.runScript .standard script ⟨0⟩) (s 1)
        (.ok ⟨some (.int 5), .none⟩) t ∧
      Runs .standard (Exec.runScript .standard script ⟨0⟩) (s 2) (.ok ⟨some (.int 5), .none⟩) t' ∧
      t.scopes.local? ⟨1⟩ "x" = some (.int 5) ∧ t'.scopes.local? ⟨1⟩ "x" = some (.int 5) ∧
      t.scopes.scope? ⟨2⟩ = some ⟨none, [("secret", .int 1)]⟩ := by
  intro f script s
  -- the third scope is no parent, no module, and captured by no function
  have near : ∀ i, (s 1).InReach ⟨0⟩ i → i = ⟨0⟩ ∨ i = ⟨1⟩ := by
    intro i reached
    induction reached with
    | start => exact Or.inl rfl
    | module registered => cases registered
    | parent _ above ih =>
        rcases ih with rfl | rfl
        · cases above
        · cases above
    | @closure i name v k shown c _ _ _ captured _ =>
        cases k with
        | zero =>
            cases captured
            exact Or.inr rfl
        | succ k => cases captured
  have literal : ∀ n, (Expr.literal (.int n)).Obeys (.literals FunctionRef.IsQuiet) := by
    intro n
    refine .intro (fun v hv => ?_) (by simp [Expr.operands]) (by simp [Expr.body])
    cases hv
    exact Value.only_int n
  have body : BlockObeys (.literals FunctionRef.IsQuiet) .function f.body := by
    intro stmt h
    obtain rfl := List.mem_singleton.mp h
    refine .intro trivial ?_ (by simp [Form.blocks])
    simp only [Form.expressions, List.mem_singleton, forall_eq]
    exact .intro (fun v hv => by cases hv) (by simpa [Expr.operands] using literal 5)
      (by simp [Expr.body])
  have code : BlockObeys (.literals FunctionRef.IsQuiet) .function script := by
    intro stmt h
    obtain rfl := List.mem_singleton.mp h
    refine .intro trivial ?_ (by simp [Form.blocks])
    simp only [Form.expressions, List.mem_singleton, forall_eq]
    refine .intro (fun v hv => by cases hv) ?_ (by simp [Expr.body])
    simp only [Expr.operands, List.mem_singleton, forall_eq]
    exact .intro (fun v hv => by cases hv) (by simp [Expr.operands]) (by simp [Expr.body])
  have held : (s 1).scopes.local? ⟨0⟩ "f" = some (.function (.closure 0 "f")) := rfl
  have quiet : (s 1).QuietFrom ⟨0⟩ := by
    intro i name v reached bound
    rw [ScopeStore.local?_eq] at bound
    rcases near i reached with rfl | rfl
    · change boundValue? name [("f", .function (.closure 0 "f"))] = some v at bound
      rw [boundValue?] at bound
      split at bound
      · cases bound
        refine Value.only_function.mpr fun c hc => ?_
        cases hc
        exact body
      · cases bound
    · change boundValue? name [("x", .int 0)] = some v at bound
      rw [boundValue?] at bound
      split at bound
      · cases bound
        exact Value.only_int 0
      · cases bound
  have agree : (s 1).AgreeOn ((s 1).InReach ⟨0⟩) (s 2) := by
    refine ⟨rfl, rfl, fun i reached => ?_⟩
    rcases near i reached with rfl | rfl
    · rfl
    · rfl
  obtain ⟨t, run, changed⟩ : ∃ t, Runs .standard (Exec.runScript .standard script ⟨0⟩) (s 1)
      (.ok ⟨some (.int 5), .none⟩) t ∧ t.scopes.local? ⟨1⟩ "x" = some (.int 5) :=
    ⟨_, runs_iff_run.mpr ⟨40, rfl⟩, rfl⟩
  obtain ⟨alone, alike⟩ := script_isolated .standard code quiet
  obtain ⟨t', run', same⟩ := (alike (s 2) agree).1 _ _ run
  have captured : (s 1).InReach ⟨0⟩ ⟨1⟩ := .closure .start held (.function _) rfl
  refine ⟨t, t', run, run', changed, ?_, alone _ _ run ⟨2⟩ _ rfl fun reached => ?_⟩
  · exact (same.local? (Or.inl captured) "x").trans changed
  · rcases near _ reached with h | h
    · cases h
    · cases h

end StatementEngine
