import StatementEngine.Engine.Call
import StatementEngine.Engine.Statement
import StatementEngine.Engine.Task

/-!
# The interpreter

**The knot.** `Interpreter.bodies` answers every question of the engine with the body written for
it, and `Interpreter.run` runs a computation over these answers.

The entry points of a host are `Exec.runScript` for a whole script, `Exec.callBlock` for the body
of a function, and `Exec.runBlock` and `Exec.execute` for statements whose signals the host takes
over.
-/

namespace StatementEngine

/-- The result of a script. -/
structure Execution where
  value : Option Value
  signal : Signal

namespace Exec

/-- What a script yields for the completion of its statements. A throw that nothing has handled is
an error where it was raised. -/
def scriptResult (c : Completion) : Exec EngineError Execution :=
  match c.signal with
  | .none => pure ⟨c.value, .none⟩
  | .returned values => pure ⟨some (.collapse values), .returned values⟩
  | .thrown v p => raise ((EngineError.ofKind (.uncaughtThrow v)).locate p)
  | .breakLoop => raise (.ofKind .breakOutsideLoop)
  | .continueLoop => raise (.ofKind .continueOutsideLoop)

/-- Runs a script in a scope. A script is entered like a call; its declarations stay in the
scope. -/
def runScript (config : Config) (script : Block) (scope : ScopeId) :
    Exec EngineError Execution :=
  entered config.maxCallDepth id do
    let c ← runBlock script scope .function
    scriptResult c

end Exec

namespace Interpreter

/-- The answers to all questions. -/
def bodies (config : Config) : Bodies Answer State
  | .evaluate e scope => Exec.evaluateBody e scope
  | .call f args => Exec.callBody config f args
  | .execute stmt scope cx => Exec.executeBody stmt scope cx
  | .block body scope cx => Exec.blockBody body scope cx
  | .iterate loop => Exec.iterateBody loop
  | .work w => Exec.workBody w
  | .drain ran => Exec.drainBody ran
  | .await _ => fun s => .done () s

/-- More steps than any run can take. -/
def stepBound : Nat := Nat.pow 2 62

/-- Runs a computation from a state. The result is absent only for a run without end. -/
def run (config : Config) (x : Exec ε α) (s : State) : Option (Outcome ε α × State) :=
  Resumption.run (bodies config) stepBound (x s)

end Interpreter

end StatementEngine
