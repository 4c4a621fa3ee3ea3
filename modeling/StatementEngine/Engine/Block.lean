import StatementEngine.Engine.Exec

/-!
# Blocks

**A block runs its statements until one of them signals.** Its value is the last value that one of
them produced. Before each statement the running task is asked whether it should stop.
-/

namespace StatementEngine

namespace Exec

/-- Runs statements in a scope; `last` is the value so far. -/
def runFrom (scope : ScopeId) (cx : Context) : Block → Option Value → Exec EngineError Completion
  | [], last => pure ⟨last, .none⟩
  | stmt :: rest, last => do
    checkStop.mapError (·.locate stmt.position)
    let c ← execute stmt scope cx
    if c.isNormal then runFrom scope cx rest (c.value.or last)
    else pure ⟨c.value.or last, c.signal⟩

/-- The answer to `Request.block`. -/
def blockBody (body : Block) (scope : ScopeId) (cx : Context) : Exec EngineError Completion :=
  runFrom scope cx body none

/-- Runs a block in a new child of a scope. -/
def runChild (body : Block) (scope : ScopeId) (cx : Context) : Exec EngineError Completion := do
  let child ← newChild scope
  runBlock body child cx

/-- Runs a block in a new child of a scope, if there is a block. -/
def runOptional (body : Option Block) (scope : ScopeId) (cx : Context) :
    Exec EngineError Completion :=
  match body with
  | some body => runChild body scope cx
  | none => pure .empty

end Exec

end StatementEngine
