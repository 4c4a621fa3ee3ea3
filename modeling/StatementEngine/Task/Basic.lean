import StatementEngine.Error

/-!
# Tasks

**A spawned call is a task.** It has a number, the position of the statement that spawned it, and a
status that only moves forward: a pending task is started or cancelled, a running one ends. How it
ends is decided by what its call does: `TaskStatus.ofRaise` tells a task that has followed a request
to stop from one that has failed.
-/

namespace StatementEngine

/-- The number of a task; tasks are counted from one. -/
structure TaskId where
  number : Nat
  deriving DecidableEq, Inhabited

namespace TaskId

def text (t : TaskId) : String := "task#" ++ toString t.number

/-- A task number in the form that shows what it is. -/
def describe (t : TaskId) : String := "TaskId(" ++ toString t.number ++ ")"

end TaskId

/-- How far a task has come. -/
inductive TaskStatus where
  | pending
  | running
  | completed
  | failed
  | cancelled
  deriving DecidableEq, Inhabited

namespace TaskStatus

def name : TaskStatus → String
  | pending => "Pending"
  | running => "Running"
  | completed => "Completed"
  | failed => "Failed"
  | cancelled => "Cancelled"

/-- A task with such a status never changes again. -/
def isFinal : TaskStatus → Bool
  | completed | failed | cancelled => true
  | pending | running => false

/-- The name of a status, with a mark on the final ones. -/
def text (s : TaskStatus) : String := if s.isFinal then s.name ++ "!" else s.name

/-- The status of a task whose call has failed: an error that asks to stop is no failure. -/
def ofRaise (r : Raise) : TaskStatus := if r.isCancelled then cancelled else failed

end TaskStatus

/-- A task. `stopRequested` is what running statements look at. A task is live until its turn has
come and has passed. -/
structure Task where
  position : Position
  status : TaskStatus
  stopRequested : Bool
  live : Bool
  deriving Inhabited

namespace Task

/-- A task that has just been spawned. -/
def spawned (position : Position) : Task := ⟨position, .pending, false, true⟩

/-- Asks a task to stop. One that has not started is cancelled at once. -/
def cancel (t : Task) : Task :=
  { t with
    stopRequested := true
    status := if t.status = .pending then .cancelled else t.status }

/-- Whether a task whose turn has come starts, and the task after that decision. -/
def start (t : Task) : Bool × Task :=
  if t.status ≠ .pending then (false, t)
  else if t.stopRequested then (false, { t with status := .cancelled })
  else (true, { t with status := .running })

/-- The task with its call at an end. -/
def finish (t : Task) (status : TaskStatus) : Task := { t with status := status }

/-- The task after its turn. -/
def leave (t : Task) : Task := { t with live := false }

end Task

/-- A task that failed: where it was spawned, and how its call failed. -/
structure Failure where
  task : TaskId
  position : Position
  raise : Raise

namespace Failure

def text (f : Failure) : String :=
  f.task.text ++ " spawned at " ++ f.position.text ++ " failed: " ++ f.raise.text

end Failure

end StatementEngine
