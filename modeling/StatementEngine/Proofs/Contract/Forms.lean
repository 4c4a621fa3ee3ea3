import StatementEngine.Proofs.Contract.Statements

/-!
# Contracts of all forms at once

**A statement meets a contract if its parts do** (`meets_runForm`). The rules of the forms have much
in common: expressions are evaluated in the scope of the statement, blocks run in fresh scopes, and
only loops and modules change the context. What a form evaluates, runs, starts with, goes round and
declares is listed here, so a contract that says the same of all expressions, all blocks and all
loops is checked for all forms together.

* `Form.evaluated`, `Form.bodies`, `Form.start`, `Form.round`, `Form.declared` are the parts.
* `Exec.PartsMeet` says what is to be checked of them.
* `Bounds` says what the bounds on signals and errors have to allow in any case.
-/

namespace StatementEngine

namespace Form

/-- The expressions that a statement evaluates itself. Of a spawned call these are the operands. -/
def evaluated : Form → List Expr
  | .expr e => [e]
  | .ifChain branches _ => branches.map (·.condition)
  | .forIn _ iterable _ => [iterable]
  | .returnValues values => values
  | .throwValue value => [value]
  | .switch subject cases _ => subject :: (Case.candidates cases).map (·.1)
  | .var _ values => values
  | .assign targets _ values => values ++ targets.flatMap (·.expressions)
  | .assignFound targets value => value :: targets.flatMap (·.expressions)
  | .spawn e => e.operands
  | .tryCatch .. | .forClauses .. | .loop .. | .breakLoop | .continueLoop | .moduleBlock .. => []

/-- The blocks that a statement runs itself under a context, each with its own context. -/
def bodies (cx : Context) : Form → List (Context × Block)
  | .ifChain branches otherwise =>
    branches.map (fun b => (cx, b.body)) ++ otherwise.toList.map fun b => (cx, b)
  | .tryCatch body handler cleanup =>
    (cx, body) ::
      (handler.toList.map (fun h => (cx, h.body)) ++ cleanup.toList.map fun b => (cx, b))
  | .forIn _ _ body => [(cx.enterLoop, body)]
  | .moduleBlock _ body => [(.ofModule, body)]
  | .switch _ cases default =>
    (Case.candidates cases).map (fun c => (cx, c.2.2)) ++ default.toList.map fun b => (cx, b)
  | _ => []

/-- The statement that a loop starts with. -/
def start : Form → Option Stmt
  | .forClauses init _ _ _ => init
  | _ => none

/-- The condition, the update and the body of a loop that goes round. -/
def round : Form → Option (Option Expr × Option Expr × Block)
  | .forClauses _ condition update body => some (condition, update, body)
  | .loop condition body => some (condition, none, body)
  | _ => none

/-- The positions besides its own that a statement gives to what happens without one: those of its
branches, its cases and its targets. -/
def marks : Form → List Position
  | .ifChain branches _ => branches.map (·.position)
  | .switch _ cases _ => cases.map (·.position)
  | .assign targets _ _ | .assignFound targets _ => targets.map (·.position)
  | _ => []

/-- The names that a statement declares in its scope. -/
def declared : Form → List Name
  | .var names _ => names
  | _ => []

end Form

/-- A candidate has the position of its case. -/
theorem Case.position_of_candidates {cases : List Case} {c : Expr × Position × Block}
    (h : c ∈ Case.candidates cases) : c.2.1 ∈ cases.map (·.position) := by
  obtain ⟨whole, hwhole, hc⟩ := List.mem_flatMap.mp h
  obtain ⟨e, -, rfl⟩ := List.mem_map.mp hc
  exact List.mem_map_of_mem hwhole

/-- What bounds on signals and errors allow whatever a statement does: going on, handing on what is
none of a loop's business, and failing plainly. -/
structure Bounds (sig : Context → Signal → Prop) (bad : EngineError → Prop)
    (badRaise : Raise → Prop) : Prop where
  normal : ∀ cx, sig cx .none
  handOn : ∀ cx g g', sig cx.enterLoop g → g.afterIteration = .handOn g' → sig cx g'
  lift : ∀ e, bad e → badRaise (.failed e)
  plain : ∀ k, ErrorKind.IsPlain k → badRaise (.ofKind k)

namespace Exec

variable {A : Contract} {I : State → Prop} {below : ScopeId → State → Prop}
variable {sig : Context → Signal → Prop} {bad : EngineError → Prop} {badRaise : Raise → Prop}

/-- The parts of a form keep to the bounds. -/
structure PartsMeet (A : Contract) (I : State → Prop) (below : ScopeId → State → Prop)
    (sig : Context → Signal → Prop) (bad : EngineError → Prop) (badRaise : Raise → Prop)
    (form : Form) (scope : ScopeId) (cx : Context) : Prop where
  evaluated : ∀ e ∈ form.evaluated, Meets A I (fun _ => True) badRaise (evaluate e scope)
  bodies : ∀ b ∈ form.bodies cx, BlockMeets A below (sig b.1) bad b.2 b.1
  start : ∀ stmt ∈ form.start, ∀ child,
    Meets A (below child) (Signaling (sig cx)) bad (execute stmt child cx)
  /-- A loop with a condition goes round in the scope of the statement, or in a new one. -/
  round : ∀ c u b, form.round = some (c, u, b) →
    Meets A I (Signaling (sig cx)) badRaise (iterate ⟨c, u, b, scope, cx.enterLoop⟩) ∧
      ∀ child,
        Meets A (below child) (Signaling (sig cx)) badRaise (iterate ⟨c, u, b, child, cx.enterLoop⟩)
  declared : ∀ name ∈ form.declared, ∀ s v, I s →
    I { s with scopes := s.scopes.define scope name v }

/-- What is to be checked of the statements that only signal: where the context allows it their
signal is within bounds, and elsewhere their error is. -/
structure JumpsMeet (sig : Context → Signal → Prop) (bad : EngineError → Prop)
    (badRaise : Raise → Prop) (p : Position) (form : Form) (cx : Context) : Prop where
  breakLoop : form = .breakLoop → if cx.inLoop then sig cx .breakLoop
    else badRaise (.failed ((EngineError.ofKind .breakOutsideLoop).locate p))
  continueLoop : form = .continueLoop → if cx.inLoop then sig cx .continueLoop
    else badRaise (.failed ((EngineError.ofKind .continueOutsideLoop).locate p))
  returnValues : ∀ values, form = .returnValues values →
    if cx.callable then ∀ vs, sig cx (.returned vs)
    else badRaise (.failed ((EngineError.ofKind .returnOutsideFunction).locate p))
  throwValue : ∀ value, form = .throwValue value → ∀ v, sig cx (.thrown v p)
  moduleBlock : ∀ name body, form = .moduleBlock name body → ∀ g, sig .ofModule g → g ≠ .none →
    bad ((EngineError.ofKind (.moduleEscape name g.kind)).locate p)

/-- A statement keeps to the bounds if its parts do. -/
theorem meets_runForm {scope : ScopeId} (hI : StableAt I scope below)
    (bounds : Bounds sig bad badRaise) {p : Position} {form : Form} {cx : Context}
    (fill : ∀ q ∈ p :: form.marks, ∀ r, badRaise r → badRaise (r.fillPosition q))
    (jumps : JumpsMeet sig bad badRaise p form cx)
    (parts : PartsMeet A I below sig bad badRaise form scope cx) :
    Meets A I (Signaling (sig cx)) badRaise (runForm p form scope cx) := by
  have normal := bounds.normal cx
  have part := parts.evaluated
  have here : ∀ r, badRaise r → badRaise (r.fillPosition p) := fill p List.mem_cons_self
  have clause : ∀ q ∈ form.marks, ∀ r, badRaise r → badRaise (r.fillPosition q) :=
    fun q hq => fill q (List.mem_cons_of_mem p hq)
  cases form with
  | expr e => exact meets_bind (part e List.mem_cons_self) fun v _ => meets_pure normal
  | ifChain branches otherwise =>
      refine meets_runBranches normal bounds.lift hI (fun b hb => ?_) (fun b hb => ?_)
        (fun b hb => ?_) fun b hb => ?_
      · exact clause b.position (List.mem_map_of_mem hb)
      · exact part b.condition (List.mem_map_of_mem hb)
      · exact parts.bodies (cx, b.body) (List.mem_append_left _ (List.mem_map_of_mem hb))
      · have hmem := List.mem_map_of_mem (f := fun b => (cx, b)) (Option.mem_toList.mpr hb)
        exact parts.bodies (cx, b) (List.mem_append_right _ hmem)
  | tryCatch body handler cleanup =>
      refine meets_failing (meets_runTry normal hI ?_ (fun h hh => ?_) fun b hb => ?_) bounds.lift
      · exact parts.bodies (cx, body) List.mem_cons_self
      · have hmem := List.mem_map_of_mem (f := fun h => (cx, h.body)) (Option.mem_toList.mpr hh)
        exact parts.bodies (cx, h.body) (List.mem_cons_of_mem _ (List.mem_append_left _ hmem))
      · have hmem := List.mem_map_of_mem (f := fun b => (cx, b)) (Option.mem_toList.mpr hb)
        exact parts.bodies (cx, b) (List.mem_cons_of_mem _ (List.mem_append_right _ hmem))
  | forIn vars iterable body =>
      exact meets_runForIn normal bounds.lift bounds.plain (bounds.handOn cx) hI
        (part iterable List.mem_cons_self) (parts.bodies (cx.enterLoop, body) List.mem_cons_self)
  | forClauses init condition update body =>
      exact meets_runForClauses normal bounds.lift hI parts.start
        (parts.round condition update body rfl).2
  | loop condition body => exact (parts.round condition none body rfl).1
  | breakLoop =>
      have jump := jumps.breakLoop rfl
      unfold runForm
      dsimp only
      by_cases hcx : cx.inLoop
      · rw [if_pos hcx] at jump ⊢
        exact meets_pure jump
      · rw [if_neg hcx] at jump ⊢
        exact meets_raise jump
  | continueLoop =>
      have jump := jumps.continueLoop rfl
      unfold runForm
      dsimp only
      by_cases hcx : cx.inLoop
      · rw [if_pos hcx] at jump ⊢
        exact meets_pure jump
      · rw [if_neg hcx] at jump ⊢
        exact meets_raise jump
  | returnValues values =>
      have jump := jumps.returnValues values rfl
      unfold runForm
      dsimp only
      by_cases hcx : cx.callable
      · rw [if_pos hcx] at jump ⊢
        exact meets_bind (meets_evaluateAll part) fun vs _ => meets_pure (jump vs)
      · rw [if_neg hcx] at jump ⊢
        exact meets_raise jump
  | throwValue value =>
      refine meets_bind (part value List.mem_cons_self) fun v _ => ?_
      exact meets_pure (jumps.throwValue value rfl v)
  | moduleBlock name body =>
      exact meets_failing (meets_runModule normal hI (parts.bodies (.ofModule, body)
        List.mem_cons_self) (jumps.moduleBlock name body rfl)) bounds.lift
  | switch subject cases default =>
      refine meets_bind (part subject List.mem_cons_self) fun v _ => ?_
      rw [runCases_eq]
      refine meets_runCandidates normal bounds.lift hI (fun c hc => ?_) (fun c hc => ?_)
        (fun c hc => ?_) fun b hb => ?_
      · exact clause c.2.1 (Case.position_of_candidates hc)
      · exact part c.1 (List.mem_cons_of_mem _ (List.mem_map_of_mem hc))
      · have hmem := List.mem_map_of_mem (f := fun c => (cx, c.2.2)) hc
        exact parts.bodies (cx, c.2.2) (List.mem_append_left _ hmem)
      · have hmem := List.mem_map_of_mem (f := fun b => (cx, b)) (Option.mem_toList.mpr hb)
        exact parts.bodies (cx, b) (List.mem_append_right _ hmem)
  | var names values => exact meets_runVar normal bounds.plain part parts.declared
  | assign targets op values =>
      refine meets_runAssign normal bounds.plain hI here (fun t ht => ?_) (fun e he => ?_)
        fun t ht e he => ?_
      · exact clause t.position (List.mem_map_of_mem ht)
      · exact part e (List.mem_append_left _ he)
      · exact part e (List.mem_append_right _ (List.mem_flatMap.mpr ⟨t, ht, he⟩))
  | assignFound targets value =>
      refine meets_runAssignFound normal bounds.plain hI here (fun t ht => ?_)
        (part value List.mem_cons_self) fun t ht e he => ?_
      · exact clause t.position (List.mem_map_of_mem ht)
      · exact part e (List.mem_cons_of_mem _ (List.mem_flatMap.mpr ⟨t, ht, he⟩))
  | spawn e => exact meets_runSpawn normal bounds.plain hI here part

end Exec

end StatementEngine
