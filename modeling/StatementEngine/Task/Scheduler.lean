import StatementEngine.Task.Backlog

/-!
# The scheduler

**Every spawned call waits its turn.** A new task is numbered and put into the backlog, and it is in
the table of live tasks. When its turn comes it is started unless it was cancelled before, and
afterwards it leaves the table, whether it ran or not. The records of all tasks are kept, so a task
that somebody holds on to can be looked at after it has left the table.

A strategy says who takes jobs from the backlog. With `Strategy.deferred` the host does, and only
when it says so. With the others workers do in the background, as many as the strategy has room for.
-/

namespace StatementEngine

/-- Who runs the tasks. -/
inductive Strategy where
  | threads
  | pool (threads : Nat)
  | deferred
  deriving DecidableEq, Inhabited

namespace Strategy

def describe : Strategy → String
  | threads => "Threads"
  | pool n => "Pool \x7b threads: " ++ toString n ++ " \x7d"
  | deferred => "Deferred"

/-- Tasks run without being asked to. -/
def isBackground (s : Strategy) : Bool := s != deferred

/-- Whether there is room for one more worker besides some others. A pool of size 0 has as many as
it needs. -/
def hasRoom (others : Nat) : Strategy → Bool
  | threads => true
  | pool n => n = 0 || others < n
  | deferred => false

/-- Whether the workers have desks. Where every job gets a worker of its own, no job would ever wait
on one. -/
def hasDesks : Strategy → Bool
  | pool n => n != 0
  | threads | deferred => false

end Strategy

/-- All tasks and the backlog. -/
structure Scheduler where
  strategy : Strategy
  /-- Every task that was ever spawned; the first one is task 1. -/
  records : Array Task
  backlog : Backlog
  deriving Inhabited

namespace Scheduler

/-- A scheduler without tasks. -/
def ofStrategy (strategy : Strategy) : Scheduler := ⟨strategy, #[], .empty⟩

/-- The record of a task. -/
def task? (s : Scheduler) (t : TaskId) : Option Task :=
  if t.number = 0 then none else s.records[t.number - 1]?

/-- Changes the record of a task. -/
def update (s : Scheduler) (t : TaskId) (change : Task → Task) : Scheduler :=
  if t.number = 0 then s else { s with records := s.records.modify (t.number - 1) change }

/-- The number that the next task gets. -/
def nextId (s : Scheduler) : TaskId := ⟨s.records.size + 1⟩

/-- Adds a task, spawned by a worker or by somebody without a desk, to the table and to the
backlog. -/
def spawn (s : Scheduler) (work : Work) (position : Position) (worker : Option WorkerId) :
    Scheduler :=
  { s with
    records := s.records.push (.spawned position)
    backlog := s.backlog.push ⟨s.nextId, work⟩ worker }

/-- Whether a task is in the table. -/
def isLive (s : Scheduler) (t : TaskId) : Bool := (s.task? t).any (·.live)

/-- The tasks whose turn has not passed, in the order in which they were spawned. -/
def table (s : Scheduler) : List TaskId :=
  ((List.range s.records.size).map fun i => TaskId.mk (i + 1)).filter s.isLive

/-- The number of tasks in the table. -/
def liveCount (s : Scheduler) : Nat := s.records.countP (·.live)

/-- Asks a task to stop. -/
def cancel (s : Scheduler) (t : TaskId) : Scheduler := s.update t Task.cancel

/-- Asks every live task to stop. -/
def cancelAll (s : Scheduler) : Scheduler := s.table.foldl cancel s

/-- The job that a worker takes, or somebody without a desk. -/
def take? (s : Scheduler) (w : Option WorkerId) : Option (Job × Scheduler) :=
  (s.backlog.take? w).map fun (job, backlog) => (job, { s with backlog })

/-- The desk for one more worker. -/
def nextDesk? (s : Scheduler) : Option WorkerId :=
  if s.strategy.hasDesks then some s.backlog.nextDesk else none

/-- Sets up the desk for one more worker. -/
def addDesk (s : Scheduler) : Scheduler :=
  if s.strategy.hasDesks then { s with backlog := s.backlog.addDesk } else s

/-- Whether a task whose turn has come starts, and the scheduler after that decision. -/
def start (s : Scheduler) (t : TaskId) : Bool × Scheduler :=
  (((s.task? t).map (·.start.1)).getD false, s.update t (·.start.2))

/-- Notes how the call of a task ended. -/
def finish (s : Scheduler) (t : TaskId) (status : TaskStatus) : Scheduler :=
  s.update t (·.finish status)

/-- Drops a task from the table. -/
def leave (s : Scheduler) (t : TaskId) : Scheduler := s.update t Task.leave

def status? (s : Scheduler) (t : TaskId) : Option TaskStatus := (s.task? t).map (·.status)

/-- Whether there is nothing left to wait for at a task. -/
def isOver (s : Scheduler) (t : TaskId) : Bool := (s.status? t).all (·.isFinal)

/-- Whether there is nothing left to wait for at all live tasks. -/
def allOver (s : Scheduler) : Bool := s.records.all fun t => !t.live || t.status.isFinal

/-- What a task shows of itself. -/
def view? (s : Scheduler) (t : TaskId) : Option TaskView :=
  (s.task? t).map fun r => ⟨t, r.status, r.position⟩

/-- A task in the form that shows what it is. -/
def describeTask (v : TaskView) : String :=
  "TaskHandle \x7b id: " ++ v.task.describe ++ ", position: " ++ v.position.text ++ ", status: "
    ++ v.status.name ++ " \x7d"

/-- The scheduler in the form that shows what it is. -/
def describe (s : Scheduler) : String :=
  "TaskScheduler \x7b strategy: " ++ s.strategy.describe ++ ", tasks: "
    ++ toString s.liveCount ++ " \x7d"

end Scheduler

end StatementEngine
