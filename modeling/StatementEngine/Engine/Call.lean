import StatementEngine.Engine.Block
import StatementEngine.Engine.Task

/-!
# Calls

**A call is entered, runs and is left.** Entering may be refused (`enterCall`); leaving happens
whatever the outcome, so the call depth after a call is the one before it. A function body that
returns yields the returned values as one, and one that ends normally yields its last value.

The functions of the host are here as well: those of its library, one that records its arguments,
and the builtins, which let a script look at the engine that runs it.
-/

namespace StatementEngine

/-- The depth inside a call that is entered at a given depth, unless a limit refuses it. -/
def enterCall (limit : Option Nat) (depth : Nat) : Except ErrorKind Nat :=
  match limit with
  | some max => if max ≤ depth then .error (.recursionLimit max) else .ok (depth + 1)
  | none => .ok (depth + 1)

namespace Exec

variable {ε : Type}

/-- Runs a computation as a call. -/
def entered (limit : Option Nat) (refuse : EngineError → ε) (x : Exec ε α) : Exec ε α := fun s =>
  match enterCall limit s.callDepth with
  | .error kind => .done (.raised (refuse (.ofKind kind))) s
  | .ok depth =>
    x.thenAlways (fun s => { s with callDepth := s.callDepth - 1 }) { s with callDepth := depth }

/-- What a call yields for the completion of its body. -/
def callResult (c : Completion) : Exec Raise Value :=
  match c.signal with
  | .none => pure (c.value.getD .nil)
  | .returned values => pure (.collapse values)
  | .thrown v p => raise (.thrown v (some p))
  | .breakLoop => raise (.ofKind .breakOutsideLoop)
  | .continueLoop => raise (.ofKind .continueOutsideLoop)

/-- Runs a function body in a scope that holds the parameters. -/
def callBlock (config : Config) (body : Block) (scope : ScopeId) : Exec Raise Value :=
  entered config.maxCallDepth .failed do
    let c ← failing (runBlock body scope .function)
    callResult c

/-- The parameters of a call: missing arguments are `nil`, surplus ones are dropped. -/
def parameters (params : List Name) (args : List Value) : List (Name × Value) :=
  params.zip (args ++ List.replicate (params.length - args.length) .nil)

/-- Calls a function literal that has been captured. -/
def callClosure (config : Config) (c : Closure) (args : List Value) : Exec Raise Value := do
  let frame ← newChild c.scope
  defineAll frame (parameters c.literal.params args)
  callBlock config c.literal.body frame

/-- The live task that a value names. -/
def liveTask (s : State) : Option Value → Option TaskId
  | some (.int n) =>
    let t : TaskId := ⟨n.toInt.toNat⟩
    if 0 < n ∧ s.scheduler.isLive t then some t else none
  | _ => none

/-- Runs the program of a function of the host. -/
def runHost : HostProgram → Exec Raise Value
  | .yield v => pure v
  | .raise r _ => raise r
  | .panic message => panic message
  | .call f args next => do
    let v ← call f args
    runHost (next v)

/-- Calls a builtin. -/
def callBuiltin (b : Builtin) (args : List Value) : Exec Raise Value :=
  match b with
  | .depth => read fun s => .ofNat s.callDepth
  | .live => read fun s => .ofNat s.scheduler.liveCount
  | .runPending => do
    let ran ← runPending
    pure (.ofNat ran)
  | .cancelled => read fun s => .bool s.stopRequested
  | .cancel => do
    match ← read fun s => liveTask s args.head? with
    | some t => do
      cancelTask t
      pure (.bool true)
    | none => pure (.bool false)
  | .cancelAll => do
    modify fun s => { s with scheduler := s.scheduler.cancelAll }
    pure .nil
  | .status => read fun s =>
    match (liveTask s args.head?).bind s.scheduler.status? with
    | some status => .str status.text
    | none => .nil
  | .raiseCancelled => raise (.ofKind .cancelled)
  | .throwAt => runHost ((HostFunction.throwing ⟨77, 7⟩).run args)
  | .panic => runHost (HostFunction.panicking.run args)
  | .invoke => runHost (HostFunction.invoking.run args)

/-- The answer to `Request.call`. -/
def callBody (config : Config) (f : FunctionRef) (args : List Value) : Exec Raise Value :=
  match f with
  | .host id _ => runHost ((config.host.function id).run args)
  | .recorder => do
    modify fun s => { s with recorded := s.recorded.push (.collapse args) }
    pure .nil
  | .builtin b => callBuiltin b args
  | .closure id _ => do
    match ← read fun s => s.closures[id]? with
    | some c => callClosure config c args
    | none => raise (.ofKind (.invalidOperation "value is not callable"))

end Exec

end StatementEngine
