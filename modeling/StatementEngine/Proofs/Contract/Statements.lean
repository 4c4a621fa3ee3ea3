import StatementEngine.Proofs.Candidates
import StatementEngine.Proofs.Contract.Expressions

/-!
# Contracts of statements

One rule for each form of statement and for the functions that run nested blocks. A nested block
runs in a scope that has just been made, so what is asked of it is `BlockMeets`; the form says under
which context. What a form does with the completion of a nested block is a matter of signals alone,
so the rules speak of completions through a predicate on signals (`Signaling`).
-/

namespace StatementEngine

/-- The completion has a signal of a kind. -/
def Signaling (sig : Signal → Prop) (c : Completion) : Prop := sig c.signal

theorem Completion.signal_ne_none {c : Completion} (h : ¬ c.isNormal = true) :
    c.signal ≠ .none := by
  intro hc
  exact h (by rw [isNormal, hc]; rfl)

namespace Exec

variable {A : Contract} {I : State → Prop} {fresh : ScopeId → Prop} {scope : ScopeId}
  {below : ScopeId → State → Prop}

/-- The block meets the bounds in every new scope. -/
def BlockMeets (A : Contract) (below : ScopeId → State → Prop) (sig : Signal → Prop)
    (bad : EngineError → Prop) (body : Block) (cx : Context) : Prop :=
  ∀ child, Meets A (below child) (Signaling sig) bad (runBlock body child cx)

/-- A block that meets the bounds in every fresh scope does so in every new one. -/
theorem blockMeets_inner {sig : Signal → Prop} {bad : EngineError → Prop} {body : Block}
    {cx : Context}
    (h : ∀ child, fresh child → Meets A I (Signaling sig) bad (runBlock body child cx)) :
    BlockMeets A (Inner I fresh) sig bad body cx :=
  fun child => meets_inner (h child)

/-! ## Blocks -/

section Blocks
variable {sig : Signal → Prop} {bad : EngineError → Prop} (normal : sig .none)
include normal

/-- A list of statements signals what one of its statements signals, or nothing. -/
theorem meets_runFrom {body : Block} {cx : Context} {last : Option Value}
    (stop : ∀ stmt ∈ body, bad ((EngineError.ofKind .cancelled).locate stmt.position))
    (each : ∀ stmt ∈ body, Meets A I (Signaling sig) bad (execute stmt scope cx)) :
    Meets A I (Signaling sig) bad (runFrom scope cx body last) := by
  induction body generalizing last with
  | nil => exact meets_pure normal
  | cons stmt rest ih =>
      -- the value so far differs from statement to statement, and no bound is about it
      have hstop := stop stmt List.mem_cons_self
      refine meets_bind (M := fun _ => True) (meets_mapError
        (B := fun e => bad (e.locate stmt.position)) (meets_checkStop hstop) fun _ h => h) ?_
      intro _ _
      refine meets_bind (each stmt List.mem_cons_self) fun c hc => ?_
      split
      · exact ih (fun s h => stop s (List.mem_cons_of_mem _ h))
          fun s h => each s (List.mem_cons_of_mem _ h)
      · exact meets_pure hc

omit normal in
theorem meets_runChild (hI : StableAt I scope below) {body : Block} {cx : Context}
    (hbody : BlockMeets A below sig bad body cx) :
    Meets A I (Signaling sig) bad (runChild body scope cx) :=
  meets_withChild hI hbody

theorem meets_runOptional (hI : StableAt I scope below) {body : Option Block} {cx : Context}
    (hbody : ∀ b ∈ body, BlockMeets A below sig bad b cx) :
    Meets A I (Signaling sig) bad (runOptional body scope cx) := by
  cases body with
  | none => exact meets_pure normal
  | some b => exact meets_runChild hI (hbody b rfl)

/-! ## Branches and handlers -/

section Choices
variable {badRaise : Raise → Prop} (lift : ∀ e, bad e → badRaise (.failed e))
include lift

theorem meets_runBranches (hI : StableAt I scope below) {otherwise : Option Block}
    {branches : List Branch} {cx : Context}
    (fill : ∀ b ∈ branches, ∀ r, badRaise r → badRaise (r.fillPosition b.position))
    (each : ∀ b ∈ branches, Meets A I (fun _ => True) badRaise (evaluate b.condition scope))
    (bodies : ∀ b ∈ branches, BlockMeets A below sig bad b.body cx)
    (last : ∀ b ∈ otherwise, BlockMeets A below sig bad b cx) :
    Meets A I (Signaling sig) badRaise (runBranches otherwise scope cx branches) := by
  induction branches with
  | nil => exact meets_failing (meets_runOptional normal hI last) lift
  | cons b rest ih =>
      have hfill := fill b List.mem_cons_self
      refine meets_bind (meets_mapError (each b List.mem_cons_self) hfill) fun v _ => ?_
      split
      · exact meets_failing (meets_runChild hI (bodies b List.mem_cons_self)) lift
      · exact ih (fun c h => fill c (List.mem_cons_of_mem _ h))
          (fun c h => each c (List.mem_cons_of_mem _ h))
          fun c h => bodies c (List.mem_cons_of_mem _ h)

theorem meets_runCandidates (hI : StableAt I scope below) {default : Option Block} {subject : Value}
    {candidates : List (Expr × Position × Block)} {cx : Context}
    (fill : ∀ c ∈ candidates, ∀ r, badRaise r → badRaise (r.fillPosition c.2.1))
    (each : ∀ c ∈ candidates, Meets A I (fun _ => True) badRaise (evaluate c.1 scope))
    (bodies : ∀ c ∈ candidates, BlockMeets A below sig bad c.2.2 cx)
    (last : ∀ b ∈ default, BlockMeets A below sig bad b cx) :
    Meets A I (Signaling sig) badRaise (runCandidates subject default scope cx candidates) := by
  induction candidates with
  | nil => exact meets_failing (meets_runOptional normal hI last) lift
  | cons c rest ih =>
      have hfill := fill c List.mem_cons_self
      refine meets_bind (meets_mapError (each c List.mem_cons_self) hfill) fun v _ => ?_
      split
      · exact meets_failing (meets_runChild hI (bodies c List.mem_cons_self)) lift
      · exact ih (fun d h => fill d (List.mem_cons_of_mem _ h))
          (fun d h => each d (List.mem_cons_of_mem _ h))
          fun d h => bodies d (List.mem_cons_of_mem _ h)

end Choices

theorem meets_runTry (hI : StableAt I scope below) {body : Block} {handler : Option Handler}
    {cleanup : Option Block} {cx : Context}
    (hbody : BlockMeets A below sig bad body cx)
    (hhandler : ∀ h ∈ handler, BlockMeets A below sig bad h.body cx)
    (hcleanup : ∀ b ∈ cleanup, BlockMeets A below sig bad b cx) :
    Meets A I (Signaling sig) bad (runTry body handler cleanup scope cx) := by
  refine meets_bind (meets_runChild hI hbody) fun attempted hattempted => ?_
  refine meets_bind (M := Signaling sig) ?_ fun pending hpending => ?_
  · unfold runHandler
    split
    · next h v _ _ =>
      refine meets_withChild hI fun child => ?_
      refine meets_bind (meets_defineChild hI child _) fun _ _ => ?_
      exact hhandler h rfl child
    · exact meets_pure hattempted
  · -- what is pending stands unless the end has a signal of its own
    refine meets_bind (meets_runOptional normal hI hcleanup) fun c hc => ?_
    split
    · exact meets_pure hpending
    · exact meets_pure hc

/-- Whatever signal ends the body of a module is an error of the module statement. -/
theorem meets_runModule (hI : StableAt I scope below) {inner : Signal → Prop} {p : Position}
    {name : Name} {body : Block} (hbody : BlockMeets A below inner bad body .ofModule)
    (escape : ∀ g, inner g → g ≠ .none →
      bad ((EngineError.ofKind (.moduleEscape name g.kind)).locate p)) :
    Meets A I (Signaling sig) bad (runModule p name body scope) := by
  refine meets_withChild hI fun child => ?_
  refine meets_bind (hbody child) fun c hc => ?_
  split
  · have registered := (hI.steady child).register
    refine meets_bind (M := fun _ => True) (meets_modify (registered · _) trivial) fun _ _ => ?_
    exact meets_pure normal
  · next h => exact meets_raise (escape _ hc (Completion.signal_ne_none h))

end Blocks

/-! ## Loops -/

section Loops
variable {sig inner : Signal → Prop} {bad : EngineError → Prop} {badRaise : Raise → Prop}
variable (normal : sig .none) (lift : ∀ e, bad e → badRaise (.failed e))
variable (plain : ∀ k, ErrorKind.IsPlain k → badRaise (.ofKind k))
variable (handOn : ∀ g g', inner g → g.afterIteration = .handOn g' → sig g')
include normal lift plain handOn

theorem meets_runRows (hI : StableAt I scope below) {vars : List Name} {body : Block}
    {cx : Context} {rs : List (List Value)} (hbody : BlockMeets A below inner bad body cx) :
    Meets A I (Signaling sig) badRaise (runRows vars body scope cx rs) := by
  have stop : badRaise (.failed (.ofKind .cancelled)) := plain .cancelled trivial
  induction rs with
  | nil => exact meets_pure normal
  | cons row rest ih =>
      refine meets_bind (M := fun _ => True) (meets_failing
        (B := fun e => badRaise (.failed e)) (meets_checkStop stop) fun _ h => h) fun _ _ => ?_
      -- only the body is about the new scope
      simp only [← bind_assoc]
      refine meets_bind (M := Signaling inner) (meets_withChild hI fun iteration => ?_)
        fun c hc => ?_
      · refine meets_bind (meets_defineChild hI iteration _) fun _ _ => ?_
        exact meets_failing (hbody iteration) lift
      split
      · exact ih
      · exact meets_pure normal
      · next g hg => exact meets_pure (handOn _ g hc hg)

theorem meets_runForIn (hI : StableAt I scope below) {vars : List Name} {iterable : Expr}
    {body : Block} {cx : Context}
    (hiterable : Meets A I (fun _ => True) badRaise (evaluate iterable scope))
    (hbody : BlockMeets A below inner bad body cx.enterLoop) :
    Meets A I (Signaling sig) badRaise (runForIn vars iterable body scope cx) := by
  refine meets_bind hiterable fun v _ => ?_
  refine meets_bind (meets_ofExcept_plain plain fun _ h => (ofOperation_of_rows h).isPlain)
    fun rs _ => ?_
  exact meets_runRows normal lift plain handOn hI hbody

/-- One turn of a loop with a condition, given that further turns meet the bounds. -/
theorem meets_iterateBody {loop : LoopHead} (hI : StableAt I loop.scope below)
    (hcondition : ∀ e ∈ loop.condition, Meets A I (fun _ => True) badRaise (evaluate e loop.scope))
    (hupdate : ∀ e ∈ loop.update, Meets A I (fun _ => True) badRaise (evaluate e loop.scope))
    (hbody : BlockMeets A below inner bad loop.body loop.context)
    (again : Meets A I (Signaling sig) badRaise (iterate loop)) :
    Meets A I (Signaling sig) badRaise (iterateBody loop) := by
  have stop : badRaise (.failed (.ofKind .cancelled)) := plain .cancelled trivial
  refine meets_bind (M := fun _ => True) (meets_failing
    (B := fun e => badRaise (.failed e)) (meets_checkStop stop) fun _ h => h) fun _ _ => ?_
  refine meets_bind (M := fun _ => True) ?_ fun b _ => ?_
  · unfold holds
    split
    · next e he => exact meets_bind (hcondition e he) fun v _ => meets_pure trivial
    · exact meets_pure trivial
  · split
    · refine meets_bind (meets_failing (meets_runChild hI hbody) lift) fun c hc => ?_
      split
      · split
        · next e he => exact meets_bind (hupdate e he) fun _ _ => again
        · exact again
      · exact meets_pure normal
      · next g hg => exact meets_pure (handOn _ g hc hg)
    · exact meets_pure normal

omit plain handOn in
/-- The start of the loop belongs to the surroundings: whatever it signals, the loop signals. -/
theorem meets_runForClauses (hI : StableAt I scope below) {init : Option Stmt}
    {condition update : Option Expr} {body : Block} {cx : Context}
    (hinit : ∀ stmt ∈ init, ∀ child,
      Meets A (below child) (Signaling sig) bad (execute stmt child cx))
    (hloop : ∀ child, Meets A (below child) (Signaling sig) badRaise
      (iterate ⟨condition, update, body, child, cx.enterLoop⟩)) :
    Meets A I (Signaling sig) badRaise (runForClauses init condition update body scope cx) := by
  refine meets_withChild hI fun child => ?_
  -- the loop only goes round once its start has come to its end
  have goOn : ∀ started : Completion, Signaling sig started →
      Meets A (below child) (Signaling sig) badRaise
        (if started.isNormal then iterate ⟨condition, update, body, child, cx.enterLoop⟩
          else pure (.ofSignal started.signal)) := by
    intro started hstarted
    split
    · exact hloop child
    · exact meets_pure hstarted
  cases init with
  | none => exact meets_bind (meets_pure normal) goOn
  | some stmt => exact meets_bind (meets_failing (hinit stmt rfl child) lift) goOn

end Loops

/-! ## Declarations, assignments and spawns -/

section Straight
variable {sig : Signal → Prop} {bad : Raise → Prop} (normal : sig .none)
variable (plain : ∀ k, ErrorKind.IsPlain k → bad (.ofKind k))
include normal plain

theorem meets_runVar {names : List Name} {values : List Expr}
    (each : ∀ e ∈ values, Meets A I (fun _ => True) bad (evaluate e scope))
    (declare : ∀ name ∈ names, ∀ s v, I s →
      I { s with scopes := s.scopes.define scope name v }) :
    Meets A I (Signaling sig) bad (runVar names values scope) := by
  refine meets_bind (meets_evaluateAll each) fun vs _ => ?_
  refine meets_bind (M := fun bindings => ∀ b ∈ bindings, b.1 ∈ names)
    (meets_ofExcept (fun bindings h b hb => fst_mem_of_declared h hb)
      fun k h => plain k (ofOperation_of_declared h).isPlain) fun bindings hnames => ?_
  refine meets_bind (meets_defineAll fun s b hb => declare b.1 (hnames b hb) s b.2) fun _ _ => ?_
  exact meets_pure normal

theorem meets_runAssign (hI : StableAt I scope below) {p : Position} {targets : List Target}
    {op : AssignOp} {values : List Expr} (fill : ∀ r, bad r → bad (r.fillPosition p))
    (fillTarget : ∀ t ∈ targets, ∀ r, bad r → bad (r.fillPosition t.position))
    (eachValue : ∀ e ∈ values, Meets A I (fun _ => True) bad (evaluate e scope))
    (eachTarget : ∀ t ∈ targets, ∀ e ∈ t.expressions,
      Meets A I (fun _ => True) bad (evaluate e scope)) :
    Meets A I (Signaling sig) bad (runAssign p targets op values scope) := by
  refine meets_bind (meets_evaluateAll eachValue) fun vs _ => ?_
  refine meets_bind (meets_ofExcept_plain plain fun _ h => (ofOperation_of_assigned h).isPlain)
    fun paired _ => ?_
  refine meets_bind (meets_assignEach plain hI fill ?_ ?_) fun last _ => meets_pure normal
  · exact fun tv h => fillTarget tv.1 (List.of_mem_zip h).1
  · exact fun tv h => eachTarget tv.1 (List.of_mem_zip h).1

theorem meets_runAssignFound (hI : StableAt I scope below) {p : Position} {targets : List Target}
    {value : Expr} (fill : ∀ r, bad r → bad (r.fillPosition p))
    (fillTarget : ∀ t ∈ targets, ∀ r, bad r → bad (r.fillPosition t.position))
    (hvalue : Meets A I (fun _ => True) bad (evaluate value scope))
    (eachTarget : ∀ t ∈ targets, ∀ e ∈ t.expressions,
      Meets A I (fun _ => True) bad (evaluate e scope)) :
    Meets A I (Signaling sig) bad (runAssignFound p targets value scope) := by
  unfold runAssignFound
  split
  · exact meets_raise (plain _ trivial)
  · refine meets_bind hvalue fun v _ => ?_
    refine meets_bind (meets_assignEach plain hI fill ?_ ?_) fun _ _ => meets_pure normal
    · exact fun tv h => fillTarget tv.1 (List.of_mem_zip h).1
    · exact fun tv h => eachTarget tv.1 (List.of_mem_zip h).1

theorem meets_runSpawn (hI : StableAt I scope below) {p : Position} {e : Expr}
    (fill : ∀ r, bad r → bad (r.fillPosition p))
    (each : ∀ e' ∈ e.operands, Meets A I (fun _ => True) bad (evaluate e' scope)) :
    Meets A I (Signaling sig) bad (runSpawn p e scope) := by
  unfold runSpawn
  split
  · refine meets_bind (meets_evaluateCall plain each) fun fvs _ => ?_
    refine meets_bind (M := fun _ => True)
      (meets_modify (fun s => hI.schedule s _ (.spawn _ p s.worker)) trivial) fun _ _ => ?_
    exact meets_pure normal
  · exact meets_raise (bad_locate plain fill .notInvokable trivial)

end Straight

/-- The end of a statement: throws become signals, and what has no position gets one. -/
theorem meets_located {sig : Signal → Prop} {bad : Raise → Prop} {badError : EngineError → Prop}
    {p : Position} {x : Exec Raise Completion} (hx : Meets A I (Signaling sig) bad x)
    (thrown : ∀ v at?, bad (.thrown v at?) → sig (.thrown v (at?.getD p)))
    (failed : ∀ e, bad (.failed e) → badError (e.fillPosition p)) :
    Meets A I (Signaling sig) badError (located p x) := by
  intro s hs
  unfold located
  rw [Resumption.ensures_bind]
  refine (hx s hs).mono fun o t ht => ?_
  cases o with
  | ok c => exact ht
  | raised r =>
      cases r with
      | thrown v at? => exact ⟨ht.1, thrown v at? ht.2⟩
      | failed e => exact ⟨ht.1, failed e ht.2⟩
  | panicked m => exact ⟨ht.1, trivial⟩

end Exec

end StatementEngine
