import StatementEngine.Queue
import StatementEngine.Task.Action

/-!
# The backlog

**Jobs that nobody has taken.** What the host spawns stands in a queue for all. The workers of a
pool have desks besides: what a task spawns is put on the desk of the worker that runs the task.

A worker who looks for a job takes, as long as there is one,

1. the newest job on its own desk,
2. the oldest job on the desk of another worker,
3. the oldest job of the queue.

So a worker with a desk finds a job whenever there is one (`take?_eq_none_iff`), on whatever desk it
is. One without a desk takes from the queue alone.
-/

namespace StatementEngine

/-- The work of a task. -/
inductive Work where
  /-- A call of a function with arguments that have been evaluated. -/
  | call (f : FunctionRef) (args : List Value)
  /-- A host function that performs actions. -/
  | perform (name : String) (body : List TaskAction) (args : List Value)

/-- A task that waits with its work. -/
structure Job where
  task : TaskId
  work : Work

/-- A worker with a desk; desks are counted from zero. -/
structure WorkerId where
  desk : Nat
  deriving DecidableEq

/-- The jobs that have not been taken. -/
structure Backlog where
  queue : Queue Job
  desks : Array (Queue Job)
  deriving Inhabited

namespace Backlog

/-- No jobs and no desks. -/
def empty : Backlog := ⟨.empty, #[]⟩

/-- All jobs. -/
def jobs (b : Backlog) : List Job := b.desks.toList.flatMap Queue.toList ++ b.queue.toList

/-- The number of jobs. -/
def size (b : Backlog) : Nat :=
  b.desks.foldl (fun n desk => n + desk.size) b.queue.size

/-- Adds a job that was spawned by a worker, or by somebody without a desk. -/
def push (b : Backlog) (job : Job) : Option WorkerId → Backlog
  | none => { b with queue := b.queue.push job }
  | some w =>
    match b.desks[w.desk]? with
    | none => { b with queue := b.queue.push job }
    | some desk => { b with desks := b.desks.setIfInBounds w.desk (desk.push job) }

/-- The number that the next desk gets. -/
def nextDesk (b : Backlog) : WorkerId := ⟨b.desks.size⟩

/-- Adds an empty desk. -/
def addDesk (b : Backlog) : Backlog := { b with desks := b.desks.push .empty }

/-- Takes a job from the desk of a worker. -/
def takeFrom? (b : Backlog) (w : WorkerId) (pick : Queue Job → Option (Job × Queue Job)) :
    Option (Job × Backlog) :=
  match b.desks[w.desk]? with
  | none => none
  | some desk => (pick desk).map fun (job, rest) =>
    (job, { b with desks := b.desks.setIfInBounds w.desk rest })

/-- Takes the oldest job of the first desk that has one. -/
def takeFromDesks? (b : Backlog) : Option (Job × Backlog) :=
  (List.range b.desks.size).findSome? fun i => b.takeFrom? ⟨i⟩ Queue.pop?

/-- Takes the oldest job of the queue. -/
def takeFromQueue? (b : Backlog) : Option (Job × Backlog) :=
  b.queue.pop?.map fun (job, rest) => (job, { b with queue := rest })

/-- The job that a worker takes, and the backlog without it. -/
def take? (b : Backlog) : Option WorkerId → Option (Job × Backlog)
  | none => b.takeFromQueue?
  | some w => b.takeFrom? w Queue.popNewest? <|> b.takeFromDesks? <|> b.takeFromQueue?

/-! ## Laws -/

theorem takeFromQueue?_eq_none_iff {b : Backlog} :
    b.takeFromQueue? = none ↔ b.queue.toList = [] := by
  simp [takeFromQueue?, Queue.pop?_eq_none_iff]

theorem takeFromDesks?_eq_none_iff {b : Backlog} :
    b.takeFromDesks? = none ↔ ∀ desk ∈ b.desks, desk.toList = [] := by
  simp only [takeFromDesks?, List.findSome?_eq_none_iff, List.mem_range, takeFrom?,
    Array.forall_mem_iff_forall_getElem]
  refine forall_congr' fun i => forall_congr' fun h => ?_
  simp [h, Queue.pop?_eq_none_iff]

/-- A worker with a desk finds no job only where there is none. -/
theorem take?_eq_none_iff {b : Backlog} {w : WorkerId} : b.take? (some w) = none ↔ b.jobs = [] := by
  have own (h : ∀ desk ∈ b.desks, desk.toList = []) : b.takeFrom? w Queue.popNewest? = none := by
    unfold takeFrom?
    split
    · rfl
    · next desk found =>
      simp [Queue.popNewest?_eq_none_iff.2 (h desk (Array.mem_of_getElem? found))]
  simp only [take?, jobs, Option.orElse_eq_orElse, Option.orElse_eq_or, Option.or_eq_none_iff,
    takeFromDesks?_eq_none_iff, takeFromQueue?_eq_none_iff, List.append_eq_nil_iff,
    List.flatMap_eq_nil_iff, Array.mem_toList_iff]
  exact ⟨fun h => h.2, fun h => ⟨own h.1, h⟩⟩

end Backlog

end StatementEngine
