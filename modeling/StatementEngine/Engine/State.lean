import StatementEngine.Engine.Library
import StatementEngine.Scope.Registry
import StatementEngine.Syntax.Tree
import StatementEngine.Task.Scheduler

/-!
# The state of a run

**Everything that a run can change**, in one value. Statements change scopes, function literals add
closures, and the scheduler, the sink and the recorder belong to the host. Three fields say where
the engine is: how many calls have been entered and not left, which task is running, and which
worker runs it.
-/

namespace StatementEngine

/-- A function literal with the scope that it was evaluated in. -/
structure Closure where
  literal : FunctionLiteral
  scope : ScopeId

/-- What a host chooses once for all runs. -/
structure Config where
  /-- How many calls may be entered at the same time. -/
  maxCallDepth : Option Nat
  [host : HostLibrary]

/-- The configuration of a host that chooses nothing. -/
def Config.standard : Config := ⟨some 10000⟩

/-- The state of a run. -/
structure State where
  scopes : ScopeStore
  closures : Array Closure
  modules : Registry
  scheduler : Scheduler
  sink : Sink
  /-- What scripts have handed to the host, oldest first. -/
  recorded : Array Value
  /-- The calls entered and not left. -/
  callDepth : Nat
  /-- The innermost task being run. -/
  running : Option TaskId
  /-- The worker at work, if it is one with a desk. -/
  worker : Option WorkerId
  /-- The tasks that the host holds on to. -/
  held : List TaskId
  /-- The replies to what host tasks have asked, each with the name of the function. -/
  log : Array (String × TaskReply)
  deriving Inhabited

namespace State

/-- The state before anything has run. -/
def initial (strategy : Strategy) (sink : SinkKind) : State where
  scopes := .empty
  closures := #[]
  modules := .nil
  scheduler := .ofStrategy strategy
  sink := .ofKind sink
  recorded := #[]
  callDepth := 0
  running := none
  worker := none
  held := []
  log := #[]

/-- Whether the task being run has been asked to stop. Outside of tasks nobody is asked. -/
def stopRequested (s : State) : Bool :=
  s.running.any fun t => (s.scheduler.task? t).any (·.stopRequested)

/-- Spawns a task. -/
def spawn (s : State) (work : Work) (position : Position) : State :=
  { s with scheduler := s.scheduler.spawn work position s.worker }

/-- Adds a scope below another one. -/
def newChild (s : State) (parent : ScopeId) : ScopeId × State :=
  (s.scopes.next, { s with scopes := s.scopes.add (some parent) })

/-- Adds a scope without a parent. -/
def newRoot (s : State) : ScopeId × State :=
  (s.scopes.next, { s with scopes := s.scopes.add none })

end State

end StatementEngine
