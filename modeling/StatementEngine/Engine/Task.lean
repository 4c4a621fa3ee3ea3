import StatementEngine.Engine.Exec

/-!
# Running tasks

**A job is run to its end, whatever that end is.** While it runs, its task is the one that
statements ask whether to stop; afterwards it is the task from before. A value completes the task,
an error or a throw fails it and is reported, a panic is reported too, and only an error that says
the task has followed a request to stop counts as cancellation.

Who runs the jobs is not said here: a host that runs them itself drains the queue (`drainBody`),
and workers in the background are the matter of `StatementEngine.Engine.Crew`. A computation that
needs the outcome of a worker waits for it (`waitFor`).
-/

namespace StatementEngine

namespace Exec

variable {ε : Type}

/-- Runs a computation as a task. -/
def asTask (t : TaskId) (x : Exec ε α) : Exec ε α := fun s =>
  let before := s.running
  x.thenAlways (fun s => { s with running := before }) { s with running := some t }

/-- Reports a failure of a task. -/
def report (t : TaskId) (r : Raise) : Exec ε Unit :=
  modify fun s =>
    match s.scheduler.task? t with
    | some task => { s with sink := s.sink.report ⟨t, task.position, r⟩ }
    | none => s

/-- Notes how a task ended. -/
def finishTask (t : TaskId) (status : TaskStatus) : Exec ε Unit :=
  modify fun s => { s with scheduler := s.scheduler.finish t status }

/-- Ends a task as the outcome of its call says. -/
def settleTask (t : TaskId) : Outcome Raise Value → Exec ε Unit
  | .ok _ => finishTask t .completed
  | .raised r => do
    if !r.isCancelled then report t r
    finishTask t (.ofRaise r)
  | .panicked m => do
    report t (.ofKind (.invalidOperation ("task panicked: " ++ m)))
    finishTask t .failed

/-- Runs a job unless its task was cancelled before. -/
def runJob (job : Job) : Exec ε Unit := do
  let started ← modifyGet fun s =>
    let (yes, scheduler) := s.scheduler.start job.task
    (yes, { s with scheduler })
  if started then
    let outcome ← settle (asTask job.task (doWork job.work))
    settleTask job.task outcome
  modify fun s => { s with scheduler := s.scheduler.leave job.task }

/-- Runs pending tasks if it is the host who has to, and yields their number. -/
def runPending : Exec ε Nat := fun s =>
  if s.scheduler.strategy.isBackground then .done (.ok 0) s else drain s

/-- The answer to `Request.drain`: takes the next job, runs it and goes on. -/
def drainBody (ran : Nat) : State → Asking Nat := fun s =>
  match s.scheduler.take? none with
  | none => .done ran s
  | some (job, scheduler) =>
    (runJob job { s with scheduler } : Asking (Outcome Empty Unit)).bind fun _ s =>
      .ask (.drain (ran + 1)) s .done

/-- Waits for workers in the background, if there are any. -/
def waitFor (what : Awaited) : Exec ε Unit := do
  if ← read (·.scheduler.strategy.isBackground) then await what

/-- Waits until no task is left, running those that the host has to run. A task that runs on the host
itself and calls this would wait for its own end and so for ever. Here it goes on at once: what is
proved about all runs is then also proved about some that nobody will see. -/
def joinAll : Exec ε Unit := do
  let _ ← runPending
  waitFor .allTasks

/-- Failures by the number of their task, which is the order that workers in the background leave
open. -/
def ordered (s : State) (failures : Array Failure) : List Failure :=
  if s.scheduler.strategy.isBackground then
    failures.toList.mergeSort (·.task.number ≤ ·.task.number)
  else failures.toList

/-! ## Commands -/

/-- The reply to a command about a task that is held on to. -/
def onHeld (t : TaskId) (reply : Exec ε TaskReply) : Exec ε TaskReply := do
  if ← read (·.held.contains t) then reply else pure .notFound

/-- The reply that shows how far a task has come. -/
def statusReply (t : TaskId) (reply : Option TaskStatus → TaskReply) : Exec ε TaskReply :=
  read fun s => reply (s.scheduler.status? t)

/-- Asks a task to stop. -/
def cancelTask (t : TaskId) : Exec ε Unit :=
  modify fun s => { s with scheduler := s.scheduler.cancel t }

/-- Carries out a command. -/
def runCommand : TaskCommand → Exec ε TaskReply
  | .spawn name body args position => modifyGet fun s =>
    let t := s.scheduler.nextId
    (.spawned t, { s.spawn (.perform name body args) position with held := t :: s.held })
  | .runPending => do
    let ran ← runPending
    pure (.ran ran)
  | .joinAll => do
    joinAll
    pure .done
  | .cancelAll => do
    modify fun s => { s with scheduler := s.scheduler.cancelAll }
    pure .done
  | .live => read fun s => .live s.scheduler.liveCount
  | .tasks => read fun s => .tasks (s.scheduler.table.filterMap s.scheduler.view?)
  | .handle t => read fun s =>
    if s.scheduler.isLive t then
      match s.scheduler.view? t with
      | some view => .handle view
      | none => .notFound
    else .notFound
  | .status t => onHeld t (statusReply t fun st => st.elim .notFound .progress)
  | .cancel t => onHeld t do
    cancelTask t
    statusReply t fun st => st.elim .notFound .status
  | .cancelQuietly t => onHeld t do
    cancelTask t
    pure .done
  | .join t => onHeld t do
    waitFor (.task t)
    statusReply t fun
      | some st => if st.isFinal then .status st else .waited none
      | none => .notFound
  | .joinTimeout t => onHeld t do
    waitFor (.taskForAWhile t)
    statusReply t fun st => .waited (st.filter (·.isFinal))
  | .describeTask t => onHeld t (read fun s =>
    match s.scheduler.view? t with
    | some view => .described t (Scheduler.describeTask view)
    | none => .notFound)
  | .hold => modifyGet fun s =>
    (.held s.scheduler.table, { s with held := s.scheduler.table ++ s.held })
  | .requested => read fun s => .requested s.stopRequested
  | .depth => read fun s => .depth s.callDepth
  | .failures => read fun s => .failures (ordered s s.sink.kept) (ordered s s.sink.delivered)
  | .takeFailures => modifyGet fun s =>
    let (kept, sink) := s.sink.take
    (.failures (ordered s kept) (ordered s sink.delivered), { s with sink })
  | .strategy => read fun s => .strategy s.scheduler.strategy.describe
  | .describeScheduler => read fun s => .description s.scheduler.describe
  | .describeSink => read fun s => .description s.sink.describe

/-- Notes a reply in the log. -/
def note (name : String) (reply : TaskReply) : Exec ε Unit :=
  modify fun s => { s with log := s.log.push (name, reply) }

/-- Performs the actions of a host function that was called with some arguments. -/
def perform (name : String) (args : List Value) : List TaskAction → Exec Raise Value
  | [] => pure .nil
  | .command c :: rest => do
    let reply ← runCommand c
    note name reply
    perform name args rest
  | .arguments :: rest => do
    note name (.arguments args)
    perform name args rest
  | .finish v :: _ => pure v
  | .throw v p :: _ => raise (.thrown v p)
  | .fail kind :: _ => raise (.ofKind kind)
  | .panic payload :: _ => panic payload.message

/-- The answer to `Request.work`. -/
def workBody : Work → Exec Raise Value
  | .call f args => call f args
  | .perform name body args => perform name args body

end Exec

end StatementEngine
