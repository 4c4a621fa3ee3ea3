import StatementEngine.Proofs.Contract.Calls
import StatementEngine.Proofs.Contract.Forms

/-!
# Keeping an invariant

**A contract may be about states alone** and say nothing of values, signals and errors. Then every
body keeps the invariant if the questions that it asks may be asked and keep it (`Contract.Lets`),
and there is one rule for each kind of question.

`Exec.Everywhere` is for what holds of whatever a host can have run.
-/

namespace StatementEngine

/-- Under the invariant a question may be asked, and answering it keeps the invariant. -/
abbrev Contract.Lets (A : Contract) (I : State → Prop) (q : Request) : Prop :=
  A.Grants I q fun _ => True

namespace Exec

/-- The computation asks what it may and keeps the invariant, however it ends. -/
abbrev Keeps (A : Contract) (I : State → Prop) (x : Exec ε α) : Prop :=
  Meets A I (fun _ => True) (fun _ => True) x

/-- A block keeps the invariant whatever it signals. -/
abbrev BlockKeeps (A : Contract) (below : ScopeId → State → Prop) (body : Block) (cx : Context) :
    Prop :=
  BlockMeets A below (fun _ => True) (fun _ => True) body cx

variable {A : Contract} {I J : State → Prop} {fresh : ScopeId → Prop}
  {below : ScopeId → State → Prop} {α ε : Type}

/-- What is asked under the invariant keeps it, whatever bounds hold of all outcomes. -/
theorem grants_of_lets {q : Request} {bounds : Answer q → Prop} (h : A.Lets I q)
    (all : ∀ a, bounds a) : A.Grants I q bounds :=
  fun s hs => ⟨(h s hs).1, fun a t ha => ⟨((h s hs).2 a t ha).1, all a⟩⟩

theorem keeps_evaluate {e : Expr} {scope : ScopeId} (h : A.Lets I (.evaluate e scope)) :
    Keeps A I (evaluate e scope) :=
  meets_evaluate (grants_of_lets h Outcome.within_true)

theorem keeps_call {f : FunctionRef} {args : List Value} (h : A.Lets I (.call f args)) :
    Keeps A I (call f args) :=
  meets_call (grants_of_lets h Outcome.within_true)

theorem keeps_execute {stmt : Stmt} {scope : ScopeId} {cx : Context}
    (h : A.Lets I (.execute stmt scope cx)) : Keeps A I (execute stmt scope cx) :=
  meets_execute (grants_of_lets h Outcome.within_true)

theorem keeps_runBlock {body : Block} {scope : ScopeId} {cx : Context}
    (h : A.Lets I (.block body scope cx)) : Keeps A I (runBlock body scope cx) :=
  meets_runBlock (grants_of_lets h Outcome.within_true)

theorem blockKeeps {body : Block} {cx : Context}
    (h : ∀ child, A.Lets (below child) (.block body child cx)) : BlockKeeps A below body cx :=
  fun child => keeps_runBlock (h child)

/-- What may be asked in a fresh scope may rely on its being fresh. -/
theorem lets_inner {q : Request} {child : ScopeId} (h : fresh child → A.Lets I q) :
    A.Lets (Inner I fresh child) q :=
  fun s hs => ⟨(h hs.2 s hs.1).1, fun a t ha => ⟨⟨((h hs.2 s hs.1).2 a t ha).1, hs.2⟩, trivial⟩⟩

theorem keeps_iterate {loop : LoopHead} (h : A.Lets I (.iterate loop)) :
    Keeps A I (iterate loop) :=
  meets_iterate (grants_of_lets h Outcome.within_true)

theorem keeps_doWork {w : Work} (h : A.Lets I (.work w)) : Keeps A I (doWork w) :=
  meets_doWork (grants_of_lets h Outcome.within_true)

theorem keeps_drain (h : A.Lets I (.drain 0)) : Keeps A I (drain : Exec ε Nat) :=
  meets_drain h

theorem keeps_await {what : Awaited} (h : A.Lets I (.await what)) :
    Keeps A I (await what : Exec ε Unit) :=
  meets_await h

theorem keeps_evaluateBody {scope : ScopeId} (hI : StableAt I scope below) {e : Expr}
    (operands : ∀ o ∈ e.operands, A.Lets I (.evaluate o scope))
    (calls : ∀ f args, A.Lets I (.call f args))
    (captures : ∀ literal, e = .function literal → ∀ s, I s →
      I { s with closures := s.closures.push ⟨literal, scope⟩ }) :
    Keeps A I (evaluateBody e scope) :=
  meets_evaluateBody (fun _ _ => trivial) hI (fun _ => trivial)
    (fun o ho => keeps_evaluate (operands o ho)) (fun f args => keeps_call (calls f args))
    fun literal h => meets_modifyGet fun s hs => ⟨captures literal h s hs, trivial⟩

/-! ## Statements and blocks -/

/-- Any signal and any error is within bounds. -/
theorem bounds_true :
    Bounds (fun _ _ => True) (fun _ : EngineError => True) fun _ : Raise => True := by
  constructor
  all_goals
    intros
    trivial

theorem jumps_true (p : Position) (form : Form) (cx : Context) :
    JumpsMeet (fun _ _ => True) (fun _ : EngineError => True) (fun _ : Raise => True) p form
      cx where
  breakLoop _ := by simp
  continueLoop _ := by simp
  returnValues _ _ := by simp
  throwValue _ _ _ := trivial
  moduleBlock _ _ _ _ _ _ := trivial

theorem keeps_located {p : Position} {x : Exec Raise Completion} (hx : Keeps A I x) :
    Keeps A I (located p x) := by
  have form : Meets A I (Signaling fun _ => True) (fun _ => True) x := hx
  have located : Meets A I (Signaling fun _ => True) (fun _ => True) (located p x) :=
    meets_located form (fun _ _ _ => trivial) fun _ _ => trivial
  exact located

/-- A statement keeps the invariant if its parts do: those that stand in its scope, and those that
run in new scopes below it. -/
theorem keepsAt_executeBody {stmt : Stmt} {scope : ScopeId} {cx : Context}
    (hI : StableAt I scope below)
    (evaluated : ∀ e ∈ stmt.form.evaluated, A.Lets I (.evaluate e scope))
    (bodies : ∀ b ∈ stmt.form.bodies cx, ∀ child, A.Lets (below child) (.block b.2 child b.1))
    (start : ∀ first ∈ stmt.form.start, ∀ child, A.Lets (below child) (.execute first child cx))
    (round : ∀ c u b, stmt.form.round = some (c, u, b) →
      A.Lets I (.iterate ⟨c, u, b, scope, cx.enterLoop⟩) ∧
        ∀ child, A.Lets (below child) (.iterate ⟨c, u, b, child, cx.enterLoop⟩))
    (declared : ∀ name ∈ stmt.form.declared, ∀ s v, I s →
      I { s with scopes := s.scopes.define scope name v }) :
    Keeps A I (executeBody stmt scope cx) := by
  have form : Meets A I (Signaling fun _ => True) (fun _ => True)
      (runForm stmt.position stmt.form scope cx) :=
    meets_runForm hI bounds_true (fun _ _ _ h => h) (jumps_true stmt.position stmt.form cx) {
      evaluated := fun e he => keeps_evaluate (evaluated e he)
      bodies := fun b hb => blockKeeps (bodies b hb)
      start := fun first hfirst child => keeps_execute (start first hfirst child)
      round := fun c u b h =>
        ⟨keeps_iterate (round c u b h).1, fun child => keeps_iterate ((round c u b h).2 child)⟩
      declared := declared }
  exact keeps_located form

theorem keeps_executeBody (hI : Stable I fresh) {stmt : Stmt} {scope : ScopeId} {cx : Context}
    (evaluated : ∀ e ∈ stmt.form.evaluated, A.Lets I (.evaluate e scope))
    (bodies : ∀ b ∈ stmt.form.bodies cx, ∀ child, fresh child → A.Lets I (.block b.2 child b.1))
    (start : ∀ first ∈ stmt.form.start, ∀ child, fresh child → A.Lets I (.execute first child cx))
    (round : ∀ c u b, stmt.form.round = some (c, u, b) → ∀ i,
      A.Lets I (.iterate ⟨c, u, b, i, cx.enterLoop⟩))
    (declared : ∀ name ∈ stmt.form.declared, ∀ s v, I s →
      I { s with scopes := s.scopes.define scope name v }) :
    Keeps A I (executeBody stmt scope cx) :=
  keepsAt_executeBody (hI.at scope) evaluated
    (fun b hb child => lets_inner (bodies b hb child))
    (fun first hfirst child => lets_inner (start first hfirst child))
    (fun c u b h => ⟨round c u b h scope, fun child => lets_inner fun _ => round c u b h child⟩)
    declared

theorem keeps_blockBody {body : Block} {scope : ScopeId} {cx : Context}
    (each : ∀ stmt ∈ body, A.Lets I (.execute stmt scope cx)) :
    Keeps A I (blockBody body scope cx) := by
  have run : Meets A I (Signaling fun _ => True) (fun _ => True) (runFrom scope cx body none) :=
    meets_runFrom trivial (fun _ _ => trivial) fun stmt hstmt => keeps_execute (each stmt hstmt)
  exact run

theorem keepsAt_iterateBody {loop : LoopHead} (hI : StableAt I loop.scope below)
    (condition : ∀ e ∈ loop.condition, A.Lets I (.evaluate e loop.scope))
    (update : ∀ e ∈ loop.update, A.Lets I (.evaluate e loop.scope))
    (body : ∀ child, A.Lets (below child) (.block loop.body child loop.context))
    (again : A.Lets I (.iterate loop)) : Keeps A I (iterateBody loop) := by
  have turn : Meets A I (Signaling fun _ => True) (fun _ => True) (iterateBody loop) :=
    meets_iterateBody trivial (fun _ _ => trivial) (fun _ _ => trivial) (fun _ _ _ _ => trivial) hI
      (fun e he => keeps_evaluate (condition e he)) (fun e he => keeps_evaluate (update e he))
      (blockKeeps body) (keeps_iterate again)
  exact turn

theorem keeps_iterateBody (hI : Stable I fresh) {loop : LoopHead}
    (condition : ∀ e ∈ loop.condition, A.Lets I (.evaluate e loop.scope))
    (update : ∀ e ∈ loop.update, A.Lets I (.evaluate e loop.scope))
    (body : ∀ child, fresh child → A.Lets I (.block loop.body child loop.context))
    (again : A.Lets I (.iterate loop)) : Keeps A I (iterateBody loop) :=
  keepsAt_iterateBody (hI.at loop.scope) condition update (fun child => lets_inner (body child))
    again

/-! ## Calls -/

section Entered
variable {config : Config} (enter : ∀ s, I s → (∀ max ∈ config.maxCallDepth, s.callDepth < max) →
  J { s with callDepth := s.callDepth + 1 })
variable (leave : ∀ t, J t → I { t with callDepth := t.callDepth - 1 })
include enter leave

theorem keeps_callBlock {body : Block} {scope : ScopeId}
    (hbody : A.Lets J (.block body scope .function)) : Keeps A I (callBlock config body scope) := by
  have run : Meets A J (Signaling fun _ => True) (fun _ => True) (runBlock body scope .function) :=
    keeps_runBlock hbody
  exact meets_callBlock (fun _ _ => trivial) (fun _ _ => trivial) (fun _ _ _ => trivial)
    (fun _ => trivial) (fun _ => trivial) enter leave run

theorem keeps_runScript {script : Block} {scope : ScopeId}
    (hscript : A.Lets J (.block script scope .function)) :
    Keeps A I (runScript config script scope) := by
  have run : Meets A J (Signaling fun _ => True) (fun _ => True)
      (runBlock script scope .function) := keeps_runBlock hscript
  have whole : Meets A I Execution.Handed (fun _ => True) (runScript config script scope) :=
    meets_runScript (fun _ _ _ => trivial) (fun _ => trivial) (fun _ => trivial)
      (fun _ => trivial) enter leave run
  exact whole.mono (fun _ _ => trivial) fun _ h => h

theorem keeps_callBody (hI : Stable I fresh) {f : FunctionRef} {args : List Value}
    {C : Closure → Prop} (known : ∀ s, I s → ∀ c ∈ s.closures, C c)
    (called : ∀ g vs, f.MayCall config args g vs → A.Lets I (.call g vs))
    (drained : A.Lets I (.drain 0))
    (closures : ∀ c, C c → ∀ child, fresh child →
      A.Lets J (.block c.literal.body child .function)) :
    Keeps A I (callBody config f args) := by
  refine meets_callBody (fun _ _ => trivial) (fun h hf => ?_) (keeps_drain drained) hI.toSteady known
    fun c hc => ?_
  · exact meets_runHost (fun _ _ _ => trivial) fun g vs next comes =>
      keeps_call (called g vs ⟨h, hf, next, comes⟩)
  · refine meets_withChild (hI.at c.scope) fun frame => ?_
    refine meets_bind (meets_defineChild (hI.at c.scope) frame _) fun _ _ => meets_inner ?_
    exact fun hframe => keeps_callBlock enter leave (closures c hc frame hframe)

end Entered

/-! ## Whatever a host can have run -/

/-- The property holds of all statements, blocks, expressions, calls and scripts, each with the way
in which it fails. -/
structure Everywhere (config : Config)
    (P : ∀ {ε α : Type}, Exec ε α → (EngineError → ε) → Prop) : Prop where
  execute : ∀ stmt scope cx, P (execute stmt scope cx) id
  runBlock : ∀ body scope cx, P (runBlock body scope cx) id
  evaluate : ∀ e scope, P (evaluate e scope) Raise.failed
  call : ∀ f args, P (call f args) Raise.failed
  callBlock : ∀ body scope, P (callBlock config body scope) Raise.failed
  runScript : ∀ script scope, P (runScript config script scope) id

theorem Everywhere.imp {config : Config}
    {P Q : ∀ {ε α : Type}, Exec ε α → (EngineError → ε) → Prop} (h : Everywhere config P)
    (le : ∀ {ε α : Type} (x : Exec ε α) (fail : EngineError → ε), P x fail → Q x fail) :
    Everywhere config Q where
  execute stmt scope cx := le _ _ (h.execute stmt scope cx)
  runBlock body scope cx := le _ _ (h.runBlock body scope cx)
  evaluate e scope := le _ _ (h.evaluate e scope)
  call f args := le _ _ (h.call f args)
  callBlock body scope := le _ _ (h.callBlock body scope)
  runScript script scope := le _ _ (h.runScript script scope)

theorem Everywhere.and {config : Config}
    {P Q : ∀ {ε α : Type}, Exec ε α → (EngineError → ε) → Prop} (hP : Everywhere config P)
    (hQ : Everywhere config Q) : Everywhere config fun x fail => P x fail ∧ Q x fail where
  execute stmt scope cx := ⟨hP.execute stmt scope cx, hQ.execute stmt scope cx⟩
  runBlock body scope cx := ⟨hP.runBlock body scope cx, hQ.runBlock body scope cx⟩
  evaluate e scope := ⟨hP.evaluate e scope, hQ.evaluate e scope⟩
  call f args := ⟨hP.call f args, hQ.call f args⟩
  callBlock body scope := ⟨hP.callBlock body scope, hQ.callBlock body scope⟩
  runScript script scope := ⟨hP.runScript script scope, hQ.runScript script scope⟩

theorem Everywhere.all {config : Config} {ι : Type}
    {P : ι → ∀ {ε α : Type}, Exec ε α → (EngineError → ε) → Prop}
    (h : ∀ i, Everywhere config (P i)) : Everywhere config fun x fail => ∀ i, P i x fail where
  execute stmt scope cx i := (h i).execute stmt scope cx
  runBlock body scope cx i := (h i).runBlock body scope cx
  evaluate e scope i := (h i).evaluate e scope
  call f args i := (h i).call f args
  callBlock body scope i := (h i).callBlock body scope
  runScript script scope i := (h i).runScript script scope

/-- What may be asked at any time may be asked first. -/
theorem everywhere_keeps {config : Config}
    (enter : ∀ s, I s → J { s with callDepth := s.callDepth + 1 })
    (leave : ∀ t, J t → I { t with callDepth := t.callDepth - 1 })
    (execute : ∀ stmt scope cx, A.Lets I (.execute stmt scope cx))
    (block : ∀ body scope cx, A.Lets I (.block body scope cx))
    (evaluate : ∀ e scope, A.Lets I (.evaluate e scope))
    (call : ∀ f args, A.Lets I (.call f args))
    (entered : ∀ body scope, A.Lets J (.block body scope .function)) :
    Everywhere config fun x _ => Keeps A I x where
  execute stmt scope cx := keeps_execute (execute stmt scope cx)
  runBlock body scope cx := keeps_runBlock (block body scope cx)
  evaluate e scope := keeps_evaluate (evaluate e scope)
  call f args := keeps_call (call f args)
  callBlock body scope := keeps_callBlock (fun s hs _ => enter s hs) leave (entered body scope)
  runScript script scope := keeps_runScript (fun s hs _ => enter s hs) leave (entered script scope)

/-! ## Tasks -/

theorem keeps_workBody (hI : Steady I) {w : Work} (called : ∀ f args, A.Lets I (.call f args))
    (awaited : ∀ what, A.Lets I (.await what)) (drained : A.Lets I (.drain 0)) :
    Keeps A I (workBody w) := by
  cases w with
  | call f args => exact keeps_call (called f args)
  | perform name body args =>
      exact meets_perform hI (fun what => keeps_await (awaited what)) (keeps_drain drained) body

end Exec

end StatementEngine
