import StatementEngine.Proofs.Run.Traversal

/-!
# Properties of all small steps

**A property that says nothing about scopes** and holds of all small steps, except for spawning,
holds of modules and of requests to stop as well. So it holds of every body but those that spawn a
task and those of the queue (`Exec.Compositional`).
-/

namespace StatementEngine

namespace Exec

variable {α β ε : Type}

/-- The property holds of small steps and questions, and of what is made of computations that it
holds of. It may depend on how a computation fails. -/
structure Compositional (P : ∀ {ε α : Type}, (EngineError → ε) → Exec ε α → Prop) : Prop where
  small : ∀ {ε α : Type} {fail : EngineError → ε} {x : Exec ε α}, Small x → P fail x
  bind : ∀ {ε α β : Type} {fail : EngineError → ε} {x : Exec ε α} {f : α → Exec ε β},
    P fail x → (∀ a, P fail (f a)) → P fail (x >>= f)
  failing : ∀ {α : Type} {x : Exec EngineError α}, P id x → P Raise.failed (failing x)
  fillPosition : ∀ {α : Type} {x : Exec Raise α}, P Raise.failed x → ∀ p,
    P Raise.failed (x.mapError (·.fillPosition p))
  located : ∀ {x : Exec Raise Completion}, P Raise.failed x → ∀ p, P id (located p x)
  entered : ∀ {ε α : Type} {limit : Option Nat} {fail : EngineError → ε} {x : Exec ε α},
    P fail x → P fail (entered limit fail x)
  evaluate : ∀ e scope, P Raise.failed (evaluate e scope)
  call : ∀ f args, P Raise.failed (call f args)
  execute : ∀ stmt scope cx, P id (execute stmt scope cx)
  runBlock : ∀ body scope cx, P id (runBlock body scope cx)
  iterate : ∀ loop, P Raise.failed (iterate loop)
  runPending : ∀ {ε : Type} {fail : EngineError → ε}, P fail (runPending : Exec ε Nat)

namespace Compositional

variable {P : ∀ {ε α : Type}, (EngineError → ε) → Exec ε α → Prop} (hP : Compositional P)
include hP

/-- What holds of all small steps holds of the plain ones, whatever scopes there are. -/
theorem walk : Walk fun _ => P where
  plain h := hP.small h.small
  stop := hP.small small_checkStop
  stopAt _ := hP.small (small_checkStop.mapError _)
  child scope _ hf := hP.bind (hP.small (small_newChild scope)) hf
  bind := hP.bind
  failing := hP.failing
  fillPosition := hP.fillPosition
  located := hP.located
  entered := hP.entered
  evaluate _ e := hP.evaluate e _
  call := hP.call
  execute _ stmt cx := hP.execute stmt _ cx
  runBlock _ body cx := hP.runBlock body _ cx
  iterate _ := hP.iterate _
  runPending := hP.runPending

theorem pure {fail : EngineError → ε} (a : α) : P fail (Pure.pure a : Exec ε α) :=
  hP.small (small_pure a)

theorem raise {fail : EngineError → ε} (e : ε) : P fail (Exec.raise e : Exec ε α) :=
  hP.small (small_raise e)

/-- A small step and then something else. -/
theorem step {fail : EngineError → ε} {x : Exec ε α} {f : α → Exec ε β} (hx : Small x)
    (hf : ∀ a, P fail (f a)) : P fail (x >>= f) :=
  hP.bind (hP.small hx) hf

theorem evaluateCall (scope : ScopeId) (callee : Expr) (args : List Expr) :
    P Raise.failed (Exec.evaluateCall scope callee args) :=
  hP.walk.evaluateCall (K := fun _ => True) trivial callee args

theorem evaluateBody (e : Expr) (scope : ScopeId) :
    P Raise.failed (Exec.evaluateBody e scope) :=
  hP.walk.evaluateBody (K := fun _ => True) trivial e

theorem blockBody (body : Block) (scope : ScopeId) (cx : Context) :
    P id (Exec.blockBody body scope cx) :=
  hP.walk.blockBody (K := fun _ => True) trivial body cx

theorem iterateBody (loop : LoopHead) : P Raise.failed (Exec.iterateBody loop) :=
  hP.walk.iterateBody (K := fun _ => True) trivial

theorem runModule (p : Position) (name : Name) (body : Block) (scope : ScopeId) :
    P id (Exec.runModule p name body scope) := by
  refine hP.step (small_newChild scope) fun inner => ?_
  refine hP.bind (hP.runBlock body inner .ofModule) fun c => ?_
  split
  · exact hP.step (small_modify fun _ => .modules _) fun _ => hP.pure _
  · exact hP.raise _

/-- The property holds of all statements, if it holds of those that spawn. -/
theorem executeBody (stmt : Stmt) (scope : ScopeId) (cx : Context)
    (spawn : ∀ e, stmt.form = .spawn e → P Raise.failed (Exec.runSpawn stmt.position e scope)) :
    P id (Exec.executeBody stmt scope cx) :=
  hP.walk.executeBody (K := fun _ => True) trivial stmt cx
    (fun name body _ => hP.runModule stmt.position name body scope) spawn

theorem callBlock (config : Config) (body : Block) (scope : ScopeId) :
    P Raise.failed (Exec.callBlock config body scope) :=
  hP.walk.callBlock (K := fun _ => True) config trivial body

theorem callBuiltin (b : Builtin) (args : List Value) :
    P Raise.failed (Exec.callBuiltin b args) := by
  refine hP.walk.callBuiltin (K := fun _ => True) b args fun _ => ?_
  cases b with
  | cancel =>
      refine hP.step (small_read _) fun t? => ?_
      split
      · exact hP.step (small_modify fun _ => .cancel _) fun _ => hP.pure _
      · exact hP.pure _
  | cancelAll => exact hP.step (small_modify fun _ => .cancelAll) fun _ => hP.pure _
  | raiseCancelled => exact hP.raise _
  | _ => contradiction

theorem callBody (config : Config) (f : FunctionRef) (args : List Value) :
    P Raise.failed (Exec.callBody config f args) :=
  hP.walk.callBody (K := fun _ => True) config f args fun b _ _ => hP.callBuiltin b args

theorem runScript (config : Config) (script : Block) (scope : ScopeId) :
    P id (Exec.runScript config script scope) :=
  hP.walk.runScript (K := fun _ => True) config trivial script

/-- The property holds of whatever a host can have run. -/
theorem everywhere (config : Config) : Everywhere config fun x fail => P fail x :=
  hP.walk.everywhere config

/-- The property holds of all commands but those that spawn a task and that empty the sink, which
are steps of their own. -/
theorem runCommand (fail : EngineError → ε)
    (waitFor : ∀ what, P fail (Exec.waitFor what : Exec ε Unit)) {c : TaskCommand}
    (spawns : ∀ name body args p, c ≠ .spawn name body args p) (takes : c ≠ .takeFailures) :
    P fail (Exec.runCommand c : Exec ε TaskReply) := by
  have cancelling : ∀ t, Small (cancelTask t : Exec ε Unit) :=
    fun t => small_modify fun _ => .cancel t
  cases c with
  | spawn name body args position => exact absurd rfl (spawns name body args position)
  | takeFailures => exact absurd rfl takes
  | cancelAll => exact hP.step (small_modify fun _ => .cancelAll) fun _ => hP.pure _
  | cancel t =>
      refine hP.walk.onHeld (K := fun _ => True) ?_
      exact hP.step (cancelling t) fun _ => hP.small (small_read _)
  | cancelQuietly t =>
      refine hP.walk.onHeld (K := fun _ => True) ?_
      exact hP.step (cancelling t) fun _ => hP.pure _
  | _ => exact hP.walk.runCommand (K := fun _ => True) fail waitFor id

end Compositional

end Exec

end StatementEngine
