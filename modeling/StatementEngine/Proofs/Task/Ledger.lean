import Mathlib.Data.List.Nodup
import StatementEngine.Proofs.StopRequest
import StatementEngine.Proofs.Task.Path

/-!
# The books of the scheduler

**Every task is where the chronicle says.** What the chronicle tells of tasks (which have been
spawned, dequeued, put to work and settled) determines what the scheduler holds: its numbers, its
queue, its table and the status of each task (`Ledger`).

A task goes through three stages: it waits in the queue, it is being run, its turn has passed. To be
asked to stop changes nothing about that (`Scheduler.HasAt.cancel`). So each way in which a path
goes on has its lemma about the books, and the books are right at every moment
(`booked_of_path`).

The sink is not part of the books: `StatementEngine.Proofs.Task.Delivery` is about it.
-/

namespace StatementEngine

variable {spawned : List Spawning} {dequeued invoked : List Job} {underway : List TaskId}
  {endings : List Ending} {u v : Scheduler} {t : TaskId}

/-! ## Where a task stands -/

/-- How far the turn of a task has come. -/
inductive Stage where
  /-- It is in the queue. -/
  | waiting
  /-- It is being run. -/
  | underway
  /-- Its turn has passed. -/
  | gone (status : TaskStatus)

/-- What the record of a task says at a stage. A request to stop cancels a task that waits. -/
def Task.IsAt (r : Task) : Stage → Prop
  | .waiting =>
    r.live = true ∧ (r.status = .cancelled ∨ r.status = .pending ∧ r.stopRequested = false)
  | .underway => r.live = true ∧ r.status = .running
  | .gone st => r.live = false ∧ r.status = st ∧ st.isFinal = true

theorem Task.IsAt.cancel {r : Task} {stage : Stage} (h : r.IsAt stage) : r.cancel.IsAt stage := by
  unfold Task.cancel
  cases stage with
  | waiting =>
      obtain ⟨live, cancelled | ⟨pending, -⟩⟩ := h
      · exact ⟨live, Or.inl (by simp [cancelled])⟩
      · exact ⟨live, Or.inl (by simp [pending])⟩
  | underway =>
      obtain ⟨live, running⟩ := h
      exact ⟨live, by simp [running]⟩
  | gone st =>
      obtain ⟨gone, rfl, final⟩ := h
      refine ⟨gone, ?_, final⟩
      by_cases pending : r.status = .pending
      · rw [pending] at final
        cases final
      · simp [pending]

theorem Task.start_position (r : Task) : r.start.2.position = r.position := by
  unfold Task.start
  split
  · rfl
  · split
    · rfl
    · rfl

/-- A task that waits is passed over only if it was cancelled. -/
theorem Task.IsAt.cancelled_of_refused {r : Task} (h : r.IsAt .waiting)
    (refused : r.start.1 = false) : r.status = .cancelled := by
  obtain ⟨-, cancelled | ⟨pending, unasked⟩⟩ := h
  · exact cancelled
  · simp [Task.start, pending, unasked] at refused

/-- A task that waits is started only if nobody has asked it to stop. -/
theorem Task.IsAt.pending_of_begun {r : Task} (h : r.IsAt .waiting) (begun : r.start.1 = true) :
    r.status = .pending ∧ r.start.2.status = .running ∧ r.start.2.live = true := by
  obtain ⟨live, cancelled | ⟨pending, unasked⟩⟩ := h
  · simp [Task.start, cancelled] at begun
  · simp [Task.start, pending, unasked, live]

/-- The task is known and stands at the stage. -/
def Scheduler.HasAt (u : Scheduler) (t : TaskId) (stage : Stage) : Prop :=
  ∃ r, u.task? t = some r ∧ r.IsAt stage

namespace Scheduler

@[simp] theorem update_backlog (u : Scheduler) (t : TaskId) (change : Task → Task) :
    (u.update t change).backlog = u.backlog := by
  unfold update
  split
  · rfl
  · rfl

@[simp] theorem update_strategy (u : Scheduler) (t : TaskId) (change : Task → Task) :
    (u.update t change).strategy = u.strategy := by
  unfold update
  split
  · rfl
  · rfl

@[simp] theorem size_update (u : Scheduler) (t : TaskId) (change : Task → Task) :
    (u.update t change).records.size = u.records.size := by
  unfold update
  split
  · rfl
  · exact Array.size_modify

/-- A change that leaves positions as they are does so for all tasks. -/
theorem positions_update (u : Scheduler) (t : TaskId) {change : Task → Task}
    (same : ∀ r, (change r).position = r.position) :
    (u.update t change).records.toList.map (·.position) = u.records.toList.map (·.position) := by
  unfold update
  split
  · rfl
  · refine List.ext_getElem? fun i => ?_
    simp only [List.getElem?_map, Array.getElem?_toList, Array.getElem?_modify]
    split
    · rw [Option.map_map]
      exact congrArg (Option.map · _) (funext same)
    · rfl

/-- The numbers of all tasks. -/
def ids (u : Scheduler) : List TaskId := (List.range u.records.size).map fun i => ⟨i + 1⟩

theorem mem_ids : t ∈ u.ids ↔ ∃ r, u.task? t = some r := by
  unfold ids task?
  obtain ⟨n⟩ := t
  simp only [List.mem_map, List.mem_range, TaskId.mk.injEq]
  constructor
  · intro h
    obtain ⟨i, lt, rfl⟩ := h
    exact ⟨u.records[i], by simp [lt]⟩
  · intro h
    obtain ⟨r, found⟩ := h
    split at found
    · cases found
    · next positive =>
      have lt := (Array.getElem?_eq_some_iff.mp found).1
      exact ⟨n - 1, lt, by omega⟩

theorem mem_ids_of_status? {st : TaskStatus} (found : u.status? t = some st) : t ∈ u.ids := by
  obtain ⟨r, found, -⟩ := Option.map_eq_some_iff.mp found
  exact mem_ids.mpr ⟨r, found⟩

theorem nodup_ids (u : Scheduler) : u.ids.Nodup := by
  refine List.Nodup.map (fun i j same => ?_) List.nodup_range
  simpa using same

/-- A new task has its own record, and those of the others stay. -/
theorem task?_spawn (u : Scheduler) (work : Work) (p : Position) (w : Option WorkerId)
    (t : TaskId) :
    (u.spawn work p w).task? t = if t = u.nextId then some (.spawned p) else u.task? t := by
  unfold task? spawn nextId
  obtain ⟨n⟩ := t
  simp only [TaskId.mk.injEq]
  by_cases zero : n = 0
  · simp [zero]
  · have last : n - 1 = u.records.size ↔ n = u.records.size + 1 := by omega
    simp only [if_neg zero, Array.getElem?_push, last]

theorem nextId_notMem_ids (u : Scheduler) : u.nextId ∉ u.ids := by
  simp [ids, nextId]

theorem ids_spawn (u : Scheduler) (work : Work) (p : Position) (w : Option WorkerId) :
    (u.spawn work p w).ids = u.ids ++ [u.nextId] := by
  simp [ids, spawn, nextId, List.range_succ]

theorem start_eq_iff {r : Task} (found : u.task? t = some r) {yes : Bool} :
    u.start t = (yes, v) ↔ r.start.1 = yes ∧ u.update t (·.start.2) = v := by
  simp [start, found]

/-! ## Stages -/

variable {stage stage' : Stage}

theorem HasAt.status?_of_waiting (h : u.HasAt t .waiting) :
    u.status? t = some .cancelled ∨ u.status? t = some .pending := by
  obtain ⟨r, found, -, cancelled | ⟨pending, -⟩⟩ := h
  · exact Or.inl (by simp [status?, found, cancelled])
  · exact Or.inr (by simp [status?, found, pending])

theorem HasAt.status?_of_underway (h : u.HasAt t .underway) : u.status? t = some .running := by
  obtain ⟨r, found, -, running⟩ := h
  simp [status?, found, running]

theorem HasAt.status?_of_gone {st : TaskStatus} (h : u.HasAt t (.gone st)) :
    u.status? t = some st ∧ st.isFinal = true := by
  obtain ⟨r, found, -, gone, final⟩ := h
  exact ⟨by simp [status?, found, gone], final⟩

theorem HasAt.not_underway_of_waiting (h : u.HasAt t .waiting) : ¬ u.HasAt t .underway := by
  intro h'
  have running := h'.status?_of_underway
  rcases h.status?_of_waiting with status | status
  · rw [status] at running
    cases running
  · rw [status] at running
    cases running

theorem HasAt.not_gone (h : u.HasAt t stage) (live : ∀ st, stage ≠ .gone st) (st : TaskStatus) :
    ¬ u.HasAt t (.gone st) := by
  intro h'
  obtain ⟨r, found, at_⟩ := h
  obtain ⟨r', found', gone, -⟩ := h'
  obtain rfl : r = r' := Option.some.inj (found.symm.trans found')
  cases stage with
  | waiting | underway =>
      rw [at_.1] at gone
      cases gone
  | gone st => exact live st rfl

theorem HasAt.update_other (h : u.HasAt t stage) {t' : TaskId} (other : t' ≠ t)
    (change : Task → Task) : (u.update t' change).HasAt t stage := by
  obtain ⟨r, found, at_⟩ := h
  refine ⟨r, ?_, at_⟩
  rw [task?_update, if_neg other]
  exact found

theorem HasAt.update (h : u.HasAt t stage) {change : Task → Task}
    (moves : ∀ r : Task, r.IsAt stage → (change r).IsAt stage') :
    (u.update t change).HasAt t stage' := by
  obtain ⟨r, found, at_⟩ := h
  refine ⟨change r, ?_, moves r at_⟩
  rw [task?_update, if_pos rfl, found]
  rfl

/-- Whoever is asked to stop, all tasks stay where they stand. -/
theorem HasAt.cancel (h : u.HasAt t stage) (t' : TaskId) : (u.cancel t').HasAt t stage := by
  by_cases same : t' = t
  · subst same
    exact h.update fun _ at_ => at_.cancel
  · exact h.update_other same _

theorem HasAt.spawn (h : u.HasAt t stage) (work : Work) (p : Position) (w : Option WorkerId) :
    (u.spawn work p w).HasAt t stage := by
  obtain ⟨r, found, at_⟩ := h
  have old : t ≠ u.nextId := by
    intro same
    exact u.nextId_notMem_ids (same ▸ Scheduler.mem_ids.mpr ⟨r, found⟩)
  refine ⟨r, ?_, at_⟩
  rw [task?_spawn, if_neg old]
  exact found

/-- What is taken is the first job of the queue. -/
theorem of_take? {job : Job} {rest : Scheduler} (taken : u.take? none = some (job, rest)) :
    u.jobs = job :: rest.jobs ∧ rest.records = u.records ∧ rest.strategy = u.strategy ∧
      rest.backlog.desks = u.backlog.desks := by
  unfold take? Backlog.take? Backlog.takeFromQueue? at taken
  simp only [Option.map_map, Option.map_eq_some_iff, Function.comp_apply, Prod.mk.injEq,
    Prod.exists] at taken
  obtain ⟨_, queue, popped, rfl, rfl⟩ := taken
  exact ⟨Queue.toList_of_pop? popped, rfl, rfl, rfl⟩

theorem task?_of_take {job : Job} {rest : Scheduler} (taken : u.take? none = some (job, rest))
    (t : TaskId) : rest.task? t = u.task? t := by
  unfold task?
  rw [(of_take? taken).2.1]

theorem HasAt.of_take {stage : Stage} (h : u.HasAt t stage) {job : Job} {rest : Scheduler}
    (taken : u.take? none = some (job, rest)) : rest.HasAt t stage := by
  unfold HasAt at h ⊢
  rw [task?_of_take taken]
  exact h

theorem jobs_eq_nil_of_take? (empty : u.take? none = none) : u.jobs = [] := by
  unfold take? at empty
  rw [Option.map_eq_none_iff] at empty
  exact Backlog.takeFromQueue?_eq_none_iff.mp empty

end Scheduler

/-! ## The books -/

/-- Tasks are numbered in the order in which they were spawned, and nobody has a desk. -/
structure Roster (spawned : List Spawning) (u : Scheduler) : Prop where
  deferred : u.strategy = .deferred
  noDesks : u.backlog.desks = #[]
  numbered : spawned.map (·.job.task) = u.ids
  positions : spawned.map (·.position) = u.records.toList.map (·.position)

theorem Roster.update (h : Roster spawned u) (t : TaskId) {change : Task → Task}
    (same : ∀ r, (change r).position = r.position) : Roster spawned (u.update t change) where
  deferred := by rw [Scheduler.update_strategy, h.deferred]
  noDesks := by rw [Scheduler.update_backlog, h.noDesks]
  numbered := by
    unfold Scheduler.ids
    rw [Scheduler.size_update]
    exact h.numbered
  positions := by rw [Scheduler.positions_update u t same, h.positions]

theorem Roster.take (h : Roster spawned u) {job : Job} (taken : u.take? none = some (job, v)) :
    Roster spawned v := by
  obtain ⟨-, records, strategy, desks⟩ := Scheduler.of_take? taken
  refine ⟨strategy.trans h.deferred, desks.trans h.noDesks, ?_, ?_⟩
  · unfold Scheduler.ids
    rw [records]
    exact h.numbered
  · rw [records, h.positions]

/-- The position in the record of a task is where it was spawned. -/
theorem Roster.position (h : Roster spawned u) {r : Task} (found : u.task? t = some r) :
    ∃ sp ∈ spawned, sp.job.task = t ∧ sp.position = r.position := by
  unfold Scheduler.task? at found
  split at found
  · cases found
  · next positive =>
    have position := congrArg (·[t.number - 1]?) h.positions
    have task := congrArg (·[t.number - 1]?) h.numbered
    have lt := (Array.getElem?_eq_some_iff.mp found).1
    simp only [List.getElem?_map, Array.getElem?_toList, found, Scheduler.ids,
      List.getElem?_range lt] at position task
    cases there : spawned[t.number - 1]? with
    | none =>
        rw [there] at task
        cases task
    | some sp =>
        rw [there] at position task
        refine ⟨sp, List.mem_of_getElem? there, ?_, Option.some.inj position⟩
        have number : sp.job.task = ⟨t.number - 1 + 1⟩ := Option.some.inj task
        rw [number, Nat.sub_add_cancel (Nat.pos_of_ne_zero positive)]

/-- What the scheduler holds, after tasks have been spawned, dequeued, put to work and settled, and
while some of them are being run. -/
structure Ledger (spawned : List Spawning) (dequeued invoked : List Job) (underway : List TaskId)
    (endings : List Ending) (u : Scheduler) : Prop extends Roster spawned u where
  /-- Jobs leave the queue in the order in which they were spawned. -/
  jobs : dequeued ++ u.jobs = spawned.map (·.job)
  waits : ∀ job ∈ u.jobs, u.HasAt job.task .waiting
  runs : ∀ t ∈ underway, u.HasAt t .underway
  ended : ∀ x ∈ endings, u.HasAt x.task (.gone x.outcome.finalStatus)
  /-- What has been passed over was cancelled. -/
  skipped : ∀ job ∈ dequeued, job ∉ invoked → u.HasAt job.task (.gone .cancelled)
  /-- What has been put to work is being run or has ended. -/
  started : (underway ++ endings.map (·.task)).Perm (invoked.map (·.task))
  taken : invoked.Sublist dequeued

namespace Ledger

/-- The books of a scheduler without tasks. -/
theorem initial : Ledger [] [] [] [] [] (.ofStrategy .deferred) where
  deferred := rfl
  noDesks := rfl
  numbered := rfl
  positions := rfl
  jobs := rfl
  waits := by simp [Scheduler.jobs, Scheduler.ofStrategy, Backlog.empty]
  runs := by simp
  ended := by simp
  skipped := by simp
  started := .refl _
  taken := .refl _

variable (h : Ledger spawned dequeued invoked underway endings u)
include h

/-- No task has been spawned twice. -/
theorem nodup : (dequeued.map (·.task) ++ u.jobs.map (·.task)).Nodup := by
  have tasks : dequeued.map (·.task) ++ u.jobs.map (·.task) = u.ids := by
    rw [← List.map_append, h.jobs, ← h.numbered, List.map_map]
    rfl
  rw [tasks]
  exact u.nodup_ids

theorem nodup_invoked : (invoked.map (·.task)).Nodup :=
  (List.nodup_append.mp h.nodup).1.sublist (h.taken.map _)

theorem nodup_started : (underway ++ endings.map (·.task)).Nodup :=
  h.started.nodup_iff.mpr h.nodup_invoked

/-- A job in the queue has not been put to work. -/
theorem notMem_invoked {job : Job} (queued : job ∈ u.jobs) : job.task ∉ invoked.map (·.task) := by
  intro started
  have dequeued := (h.taken.map Job.task).subset started
  have apart := (List.nodup_append.mp h.nodup).2.2
  exact apart _ dequeued _ (List.mem_map_of_mem queued) rfl

/-- Every task waits, is being run, has ended, or has been passed over. -/
theorem stages (known : t ∈ u.ids) :
    (t ∈ u.jobs.map (·.task) ∧ u.HasAt t .waiting) ∨ (t ∈ underway ∧ u.HasAt t .underway) ∨
      (∃ x ∈ endings, x.task = t ∧ u.HasAt t (.gone x.outcome.finalStatus)) ∨
      u.HasAt t (.gone .cancelled) := by
  have all : t ∈ (dequeued ++ u.jobs).map (·.task) := by
    rw [← h.numbered] at known
    rwa [h.jobs, List.map_map]
  obtain ⟨job, there, rfl⟩ := List.mem_map.mp all
  rcases List.mem_append.mp there with gone | queued
  · by_cases worked : job ∈ invoked
    · -- it was put to work: it is being run or has ended
      have started := h.started.mem_iff.mpr (List.mem_map_of_mem worked)
      rcases List.mem_append.mp started with running | ended
      · exact Or.inr (Or.inl ⟨running, h.runs _ running⟩)
      · obtain ⟨x, hx, same⟩ := List.mem_map.mp ended
        exact Or.inr (Or.inr (Or.inl ⟨x, hx, same, same ▸ h.ended x hx⟩))
    · exact Or.inr (Or.inr (Or.inr (h.skipped job gone worked)))
  · exact Or.inl ⟨List.mem_map_of_mem queued, h.waits job queued⟩

/-- The status is running exactly for the tasks being run. -/
theorem running_iff : u.status? t = some .running ↔ t ∈ underway := by
  constructor
  · intro running
    have notGone {st : TaskStatus} (gone : u.HasAt t (.gone st)) : False := by
      obtain ⟨status, final⟩ := gone.status?_of_gone
      rw [running] at status
      cases status
      cases final
    rcases h.stages (Scheduler.mem_ids_of_status? running) with
      ⟨-, waits⟩ | ⟨there, -⟩ | ⟨x, -, -, gone⟩ | gone
    · rcases waits.status?_of_waiting with status | status
      · rw [running] at status
        cases status
      · rw [running] at status
        cases status
    · exact there
    · exact (notGone gone).elim
    · exact (notGone gone).elim
  · intro there
    exact (h.runs t there).status?_of_underway

/-- A task that is pending has not been put to work. -/
theorem notMem_invoked_of_pending (pending : u.status? t = some .pending) :
    t ∉ invoked.map (·.task) := by
  intro worked
  rcases List.mem_append.mp (h.started.mem_iff.mpr worked) with running | ended
  · have status := (h.runs t running).status?_of_underway
    rw [pending] at status
    cases status
  · obtain ⟨x, hx, rfl⟩ := List.mem_map.mp ended
    obtain ⟨status, final⟩ := (h.ended x hx).status?_of_gone
    rw [pending] at status
    rw [← Option.some.inj status] at final
    cases final

/-! ### What the ways of getting on do to the books -/

theorem cancel (t : TaskId) : Ledger spawned dequeued invoked underway endings (u.cancel t) where
  toRoster := h.toRoster.update t fun _ => rfl
  jobs := by
    have jobs : (u.cancel t).jobs = u.jobs := by simp [Scheduler.jobs, Scheduler.cancel]
    rw [jobs, h.jobs]
  waits job queued := by
    have queued : job ∈ u.jobs := by simpa [Scheduler.jobs, Scheduler.cancel] using queued
    exact (h.waits job queued).cancel t
  runs t' hr := (h.runs t' hr).cancel t
  ended x hx := (h.ended x hx).cancel t
  skipped job hd hi := (h.skipped job hd hi).cancel t
  started := h.started
  taken := h.taken

theorem cancels (tasks : List TaskId) :
    Ledger spawned dequeued invoked underway endings (tasks.foldl Scheduler.cancel u) := by
  induction tasks generalizing u with
  | nil => exact h
  | cons t rest ih => exact ih (h.cancel t)

theorem spawn (work : Work) (p : Position) (w : Option WorkerId) :
    Ledger (spawned ++ [⟨⟨u.nextId, work⟩, p⟩]) dequeued invoked underway endings
      (u.spawn work p w) where
  deferred := h.deferred
  noDesks := by
    have kept : (u.backlog.push ⟨u.nextId, work⟩ w).desks = u.backlog.desks := by
      cases w with
      | none => rfl
      | some w => simp [Backlog.push, h.noDesks]
    exact kept.trans h.noDesks
  numbered := by rw [List.map_append, h.numbered, Scheduler.ids_spawn]; rfl
  positions := by simp [h.positions, Scheduler.spawn, Task.spawned]
  jobs := by
    rw [Scheduler.jobs_spawn h.noDesks, ← List.append_assoc, h.jobs, List.map_append]
    rfl
  waits job queued := by
    rw [Scheduler.jobs_spawn h.noDesks, List.mem_append, List.mem_singleton] at queued
    rcases queued with queued | rfl
    · exact (h.waits job queued).spawn work p w
    · refine ⟨.spawned p, ?_, rfl, Or.inr ⟨rfl, rfl⟩⟩
      rw [Scheduler.task?_spawn, if_pos rfl]
  runs t hr := (h.runs t hr).spawn work p w
  ended x hx := (h.ended x hx).spawn work p w
  skipped job hd hi := (h.skipped job hd hi).spawn work p w
  started := h.started
  taken := h.taken

/-! ### The turn of the first job -/

section Take
variable {job : Job} {rest : Scheduler} (taken : u.take? none = some (job, rest))
include taken

theorem waits_first : u.HasAt job.task .waiting := by
  refine h.waits job ?_
  rw [(Scheduler.of_take? taken).1]
  exact List.mem_cons_self

/-- The first job has been taken, and nothing has happened but to its task. -/
theorem dequeue (queue : v.jobs = rest.jobs)
    (others : ∀ t stage, job.task ≠ t → u.HasAt t stage → v.HasAt t stage) :
    dequeued ++ [job] ++ v.jobs = spawned.map (·.job) ∧
    (∀ job ∈ v.jobs, v.HasAt job.task .waiting) ∧
    (∀ t ∈ underway, v.HasAt t .underway) ∧
    (∀ x ∈ endings, v.HasAt x.task (.gone x.outcome.finalStatus)) ∧
    ∀ job ∈ dequeued, job ∉ invoked → v.HasAt job.task (.gone .cancelled) := by
  have waiting := h.waits_first taken
  obtain ⟨first, -⟩ := Scheduler.of_take? taken
  rw [queue]
  refine ⟨?_, fun job' queued => ?_, fun t hr => ?_, fun x hx => ?_, fun job' hd hi => ?_⟩
  · rw [List.append_assoc, ← h.jobs, first]
    rfl
  · refine others _ _ (fun same => ?_) (h.waits job' (first ▸ List.mem_cons_of_mem _ queued))
    -- the other jobs are those of other tasks
    have nodup := (List.nodup_append.mp h.nodup).2.1
    rw [first, List.map_cons, List.nodup_cons] at nodup
    exact nodup.1 (same ▸ List.mem_map_of_mem queued)
  · refine others _ _ (fun same => ?_) (h.runs t hr)
    exact waiting.not_underway_of_waiting (same ▸ h.runs t hr)
  · refine others _ _ (fun same => ?_) (h.ended x hx)
    exact waiting.not_gone (by simp) _ (same ▸ h.ended x hx)
  · refine others _ _ (fun same => ?_) (h.skipped job' hd hi)
    exact waiting.not_gone (by simp) _ (same ▸ h.skipped job' hd hi)

variable {next : Scheduler}

/-- The task is passed over: it was cancelled. -/
theorem skip (refused : rest.start job.task = (false, next)) :
    Ledger spawned (dequeued ++ [job]) invoked underway endings (next.leave job.task) := by
  obtain ⟨r, found, waits⟩ := (h.waits_first taken).of_take taken
  obtain ⟨no, rfl⟩ := (Scheduler.start_eq_iff found).mp refused
  have cancelled := waits.cancelled_of_refused no
  obtain ⟨jobs, waits, runs, ended, skipped⟩ :=
    h.dequeue taken (v := (rest.update job.task (·.start.2)).leave job.task)
      (by simp [Scheduler.jobs, Scheduler.leave])
      fun t stage other at_ => ((at_.of_take taken).update_other other _).update_other other _
  refine { toRoster := ?_, jobs, waits, runs, ended, skipped := fun job' hd hi => ?_,
           started := h.started, taken := h.taken.trans (List.sublist_append_left _ _) }
  · have leave (r : Task) : r.leave.position = r.position := rfl
    exact ((h.toRoster.take taken).update _ Task.start_position).update _ leave
  · rcases List.mem_append.mp hd with hd | hd
    · exact skipped job' hd hi
    · obtain rfl := List.mem_singleton.mp hd
      refine ⟨r.start.2.leave, ?_, rfl, ?_, rfl⟩
      · simp only [Scheduler.leave, Scheduler.task?_update, if_pos, found, Option.map_some]
      · simp [Task.leave, Task.start, cancelled]

/-- The task is put to work: nobody has asked it to stop. -/
theorem invoke (begun : rest.start job.task = (true, next)) :
    Ledger spawned (dequeued ++ [job]) (invoked ++ [job]) (job.task :: underway) endings next := by
  obtain ⟨r, found, waits⟩ := (h.waits_first taken).of_take taken
  obtain ⟨yes, rfl⟩ := (Scheduler.start_eq_iff found).mp begun
  obtain ⟨-, running, live⟩ := waits.pending_of_begun yes
  obtain ⟨jobs, waits, runs, ended, skipped⟩ :=
    h.dequeue taken (v := rest.update job.task (·.start.2)) (by simp [Scheduler.jobs])
      fun t stage other at_ => (at_.of_take taken).update_other other _
  refine { toRoster := ?_, jobs, waits, runs := fun t hr => ?_, ended,
           skipped := fun job' hd hi => ?_, started := ?_, taken := h.taken.append (.refl _) }
  · exact (h.toRoster.take taken).update _ Task.start_position
  · rcases List.mem_cons.mp hr with rfl | hr
    · refine ⟨r.start.2, ?_, live, running⟩
      rw [Scheduler.task?_update, if_pos rfl, found]
      rfl
    · exact runs t hr
  · rw [List.mem_append, List.mem_singleton] at hd hi
    rcases hd with hd | rfl
    · exact skipped job' hd fun before => hi (Or.inl before)
    · exact absurd (Or.inr rfl) hi
  · rw [List.map_append, List.cons_append]
    exact ((h.started.cons job.task).trans (List.perm_append_singleton _ _).symm)

end Take

end Ledger

theorem Outcome.finalStatus_isFinal (o : Outcome Raise Value) : o.finalStatus.isFinal = true := by
  cases o with
  | ok v => rfl
  | panicked m => rfl
  | raised r =>
      show (if r.isCancelled then TaskStatus.cancelled else TaskStatus.failed).isFinal = true
      split
      · rfl
      · rfl

/-- The innermost task is settled. -/
theorem Ledger.settle (h : Ledger spawned dequeued invoked (t :: underway) endings u)
    (o : Outcome Raise Value) :
    Ledger spawned dequeued invoked underway (endings ++ [⟨t, o⟩])
      ((u.finish t o.finalStatus).leave t) := by
  have running : u.HasAt t .underway := h.runs t List.mem_cons_self
  have nodup := h.nodup_started
  rw [List.cons_append, List.nodup_cons, List.mem_append, not_or] at nodup
  obtain ⟨⟨single, unended⟩, -⟩ := nodup
  have others {t' : TaskId} {stage : Stage} (other : t ≠ t') (at_ : u.HasAt t' stage) :
      ((u.finish t o.finalStatus).leave t).HasAt t' stage :=
    (at_.update_other other _).update_other other _
  have queue : ((u.finish t o.finalStatus).leave t).jobs = u.jobs := by
    simp [Scheduler.jobs, Scheduler.leave, Scheduler.finish]
  refine { toRoster := ?_, jobs := ?_, waits := fun job queued => ?_, runs := fun t' hr => ?_,
           ended := fun x hx => ?_, skipped := fun job hd hi => ?_, started := ?_,
           taken := h.taken }
  · have finish (r : Task) : (r.finish o.finalStatus).position = r.position := rfl
    have leave (r : Task) : r.leave.position = r.position := rfl
    exact (h.toRoster.update t finish).update t leave
  · rw [queue, h.jobs]
  · rw [queue] at queued
    refine others (fun same => ?_) (h.waits job queued)
    exact (h.waits job queued).not_underway_of_waiting (same ▸ running)
  · exact others (fun same => single (same ▸ hr)) (h.runs t' (List.mem_cons_of_mem _ hr))
  · rcases List.mem_append.mp hx with hx | hx
    · exact others (fun same => unended (same ▸ List.mem_map_of_mem hx)) (h.ended x hx)
    · obtain rfl := List.mem_singleton.mp hx
      obtain ⟨r, found, live, -⟩ := running
      refine ⟨(r.finish o.finalStatus).leave, ?_, rfl, rfl, o.finalStatus_isFinal⟩
      simp only [Scheduler.leave, Scheduler.finish, Scheduler.task?_update, if_pos, found,
        Option.map_some]
  · refine others (fun same => ?_) (h.skipped job hd hi)
    exact running.not_gone (by simp) _ (same ▸ h.skipped job hd hi)
  · refine List.Perm.trans ?_ h.started
    rw [List.map_append, ← List.append_assoc, List.cons_append]
    exact List.perm_append_singleton t _

/-! ## The books of a chronicle -/

section Chronicles
variable {kind : SinkKind} {past : Chronicle} {e : Occurrence}

/-- The books are right when something happens. -/
def Booked (past : Chronicle) (e : Occurrence) : Prop :=
  Ledger (Chronicle.spawned (past ++ [e])) past.dequeued (Chronicle.invoked (past ++ [e]))
    (past.underway e) past.endings e.state.scheduler

theorem booked_iff : Booked past e ↔ Ledger (past.spawned ++ e.spawns) past.dequeued
    (past.invoked ++ e.invokes) (past.underway e) past.endings e.state.scheduler := by
  unfold Booked
  rw [Chronicle.spawned_concat, Chronicle.invoked_concat]

/-- The books after something has happened, if nothing is taken from the queue and nothing is
settled then. -/
theorem Booked.afterwards (h : Booked past e) (takes : e.takes = []) (ends : e.ends = []) :
    Ledger (Chronicle.spawned (past ++ [e])) (Chronicle.dequeued (past ++ [e]))
      (Chronicle.invoked (past ++ [e])) (Chronicle.unfinished (past ++ [e]))
      (Chronicle.endings (past ++ [e])) e.state.scheduler := by
  rw [Chronicle.dequeued_concat, takes, Chronicle.endings_concat, ends,
    Chronicle.unfinished_concat_of_ends ends, List.append_nil, List.append_nil]
  exact h

/-- What neither spawns a task nor puts one to work leaves the books as they are. -/
theorem booked_of_plain (books : Ledger past.spawned past.dequeued past.invoked past.unfinished
    past.endings u) (spawns : e.spawns = []) (invokes : e.invokes = [])
    (same : e.state.scheduler = u) : Booked past e := by
  rw [booked_iff, spawns, invokes, Chronicle.underway_of_invokes invokes, List.append_nil,
    List.append_nil, same]
  exact books

section Drain
variable {s : State} {ran : Nat} {job : Job} {rest scheduler : Scheduler}
  (h : Booked past (.asked (.question (.drain ran)) s))
  (taken : s.scheduler.take? none = some (job, rest))
include h taken

/-- The drain passes over a task. -/
theorem Booked.skip (refused : rest.start job.task = (false, scheduler)) :
    Booked (past ++ [.asked (.question (.drain ran)) s]) (.asked (.question (.drain (ran + 1)))
      { s with scheduler := scheduler.leave job.task }) := by
  have none : Occurrence.ends (.asked (.question (.drain ran)) s) = [] := rfl
  have books := Ledger.skip h taken refused
  rw [← Chronicle.dequeued_concat_drain (Scheduler.of_take? taken).1 ran] at books
  refine booked_of_plain ?_ rfl rfl rfl
  rw [Chronicle.endings_concat, none, List.append_nil, Chronicle.unfinished_concat_of_ends none]
  exact books

/-- The drain puts a task to work. -/
theorem Booked.invoke (begun : rest.start job.task = (true, scheduler)) :
    Booked (past ++ [.asked (.question (.drain ran)) s]) (.asked (.question (.work job.work))
      { s with scheduler, running := some job.task }) := by
  have none : Occurrence.ends (.asked (.question (.drain ran)) s) = [] := rfl
  have books := Ledger.invoke h taken begun
  rw [← Chronicle.dequeued_concat_drain (Scheduler.of_take? taken).1 ran] at books
  rw [booked_iff, Chronicle.endings_concat, none, List.append_nil]
  show Ledger (_ ++ []) _ (_ ++ [job])
    (job.task :: Chronicle.unfinished (past ++ [.asked (.question (.drain ran)) s])) _ scheduler
  rw [List.append_nil, Chronicle.unfinished_concat_of_ends none]
  exact books

end Drain

/-- When the innermost task has worked it is settled. -/
theorem Booked.settle {w : Work} {s u : State} {o : Outcome Raise Value}
    (h : Booked past (.answered (.question (.work w)) s o u)) {task : TaskId}
    (running : s.running = some task) (innermost : past.unfinished.head? = some task) (ran : Nat)
    (outer : Option TaskId) :
    Booked (past ++ [.answered (.question (.work w)) s o u]) (.asked (.question (.drain ran))
      (State.settle { u with running := outer } task o)) := by
  obtain ⟨others, stack⟩ := List.head?_eq_some_iff.mp innermost
  have ended : Occurrence.ends (.answered (.question (.work w)) s o u) = [⟨task, o⟩] := by
    simp [Occurrence.ends, running]
  have left : Chronicle.unfinished (past ++ [.answered (.question (.work w)) s o u]) = others := by
    simp [Chronicle.unfinished_concat, stack, Occurrence.nest, running]
  have books : Ledger _ past.dequeued _ past.unfinished past.endings u.scheduler := h
  rw [stack] at books
  refine booked_of_plain ?_ rfl rfl (State.settle_scheduler _ _ _)
  rw [Chronicle.dequeued_concat, Chronicle.endings_concat, ended, left]
  show Ledger _ (past.dequeued ++ []) _ _ _ _
  rw [List.append_nil]
  exact books.settle o

/-- **The books are right at every moment of a path.** -/
theorem booked_of_path (path : Path (.initial .deferred kind) (past ++ [e])) : Booked past e := by
  refine path.induction fun past e _ follows earlier => ?_
  have settled (rest : past.AtRest) :
      Ledger past.spawned past.dequeued past.invoked past.unfinished past.endings
        (past.last (.initial .deferred kind)).scheduler := by
    rcases List.eq_nil_or_concat past with rfl | ⟨before, e', rfl⟩
    · exact .initial
    · rw [List.concat_eq_append] at rest earlier ⊢
      have rest := Chronicle.atRest_concat.mp rest
      rw [Chronicle.last_concat]
      exact (earlier before e' rfl).afterwards rest.takes rest.ends
  have due {e' : Occurrence} (last : past.getLast? = some e') :
      ∃ before, past = before ++ [e'] ∧ Booked before e' := by
    obtain ⟨before, split⟩ := List.getLast?_eq_some_iff.mp last
    exact ⟨before, split, earlier before e' split⟩
  cases follows with
  | drifts rest drift plain =>
      obtain ⟨tasks, drifted⟩ := drift.scheduler
      exact booked_of_plain ((settled rest).cancels tasks) plain.spawns plain.invokes drifted
  | @spawned o s a u t work p rest drift state kept spawns =>
      obtain ⟨tasks, drifted⟩ := drift.scheduler
      have books := (settled rest).cancels tasks
      rw [← drifted] at books
      rw [booked_iff, spawns books.noDesks]
      show Ledger _ _ (past.invoked ++ []) past.unfinished _ t.scheduler
      rw [List.append_nil, state.scheduler]
      exact books.spawn work p u.worker
  | emptied last =>
      obtain ⟨before, rfl, books⟩ := due last
      exact booked_of_plain (books.afterwards rfl rfl) rfl rfl rfl
  | @drained ran s last empty =>
      obtain ⟨before, rfl, books⟩ := due last
      have none : Occurrence.takes (.asked (.question (.drain ran)) s) = [] := by
        simp [Occurrence.takes, Scheduler.jobs_eq_nil_of_take? empty]
      exact booked_of_plain (books.afterwards none rfl) rfl rfl rfl
  | skipped last taken refused =>
      obtain ⟨before, rfl, books⟩ := due last
      exact books.skip taken refused
  | invoked last taken begun =>
      obtain ⟨before, rfl, books⟩ := due last
      exact books.invoke taken begun
  | settled last running innermost =>
      obtain ⟨before, rfl, books⟩ := due last
      rw [List.dropLast_concat] at innermost
      exact books.settle running innermost _ _

end Chronicles

end StatementEngine
