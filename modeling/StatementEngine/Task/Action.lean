import StatementEngine.Task.Sink

/-!
# What a host asks of its tasks

**Commands and their replies.** `TaskCommand` lists what can be asked of a scheduler and of the
tasks that the asker holds on to. A task of a host runs a list of `TaskAction`s: any command, or a
way to end.
-/

namespace StatementEngine

/-- What a host function panics with: a text, or something that has none. -/
inductive PanicPayload where
  | text (message : String)
  | other
  deriving DecidableEq

/-- The words for a panic. -/
def PanicPayload.message : PanicPayload → String
  | text message => message
  | other => "unknown panic"

mutual

/-- Something to ask of the scheduler. -/
inductive TaskCommand where
  /-- Spawns a call of a host function that performs the given actions. -/
  | spawn (name : String) (body : List TaskAction) (args : List Value) (position : Position)
  | runPending
  | joinAll
  | cancelAll
  | live
  | tasks
  | handle (task : TaskId)
  | status (task : TaskId)
  | cancel (task : TaskId)
  | cancelQuietly (task : TaskId)
  | join (task : TaskId)
  | joinTimeout (task : TaskId)
  | describeTask (task : TaskId)
  /-- Holds on to every task that has not been run to its end. -/
  | hold
  | requested
  | depth
  | failures
  | takeFailures
  | strategy
  | describeScheduler
  | describeSink

/-- One step of a task of a host. -/
inductive TaskAction where
  | command (c : TaskCommand)
  /-- Notes the arguments of the call. -/
  | arguments
  | finish (value : Value)
  | throw (value : Value) (position : Option Position)
  | fail (kind : ErrorKind)
  | panic (payload : PanicPayload)

end

/-- What a task shows of itself. -/
structure TaskView where
  task : TaskId
  status : TaskStatus
  position : Position

/-- The answer to a command. -/
inductive TaskReply where
  | done
  | spawned (task : TaskId)
  | ran (count : Nat)
  | live (count : Nat)
  | tasks (views : List TaskView)
  | handle (view : TaskView)
  | notFound
  | progress (status : TaskStatus)
  | status (status : TaskStatus)
  | waited (status : Option TaskStatus)
  | described (task : TaskId) (text : String)
  | held (tasks : List TaskId)
  | requested (yes : Bool)
  | depth (depth : Nat)
  | failures (kept delivered : List Failure)
  | strategy (text : String)
  | description (text : String)
  | arguments (values : List Value)

end StatementEngine
