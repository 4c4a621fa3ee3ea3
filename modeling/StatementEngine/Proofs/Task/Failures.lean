import StatementEngine.Proofs.Task.Bookkeeping
import StatementEngine.Proofs.Task.Delivery

/-!
# No failure is lost

**A host that keeps failures is told of every task that has failed**, of each of them once and in
the order in which they have ended (`Accounted`). What it is told is what it has been handed up to
now, followed by what it would be handed next.

* A task has failed if that is its status. Tasks that were completed or cancelled do not count, and
  neither do those that were passed over.
* A failure stops nothing. The drain goes on with the queue as the task has left it, and whatever is
  in the queue then is run until the drain is over, unless it is cancelled (`ServedBy`).

The main result is `accounted_of_session`.
-/

namespace StatementEngine

variable {config : Config} {kind : SinkKind} {past : Chronicle} {e : Occurrence} {s t : State}

/-! ## Whose failures are told -/

theorem Outcome.failure?_isSome_iff (o : Outcome Raise Value) :
    o.failure?.isSome = true ↔ o.finalStatus = .failed := by
  cases o with
  | ok v => simp [failure?, finalStatus]
  | panicked m => simp [failure?, finalStatus]
  | raised r =>
      show (if r.isCancelled then none else some r).isSome = true ↔
        (if r.isCancelled then TaskStatus.cancelled else .failed) = .failed
      split
      · simp
      · simp

/-- The tasks that have failed are those whose failure is told. -/
theorem Booked.failed_iff (books : Booked past e) (task : TaskId) :
    e.state.scheduler.status? task = some .failed ↔ task ∈ past.failed.map (·.task) := by
  constructor
  · intro failed
    rcases Ledger.stages books (Scheduler.mem_ids_of_status? failed) with
      ⟨-, waits⟩ | ⟨-, runs⟩ | ⟨x, hx, rfl, gone⟩ | gone
    · rcases waits.status?_of_waiting with status | status
      · rw [failed] at status
        cases status
      · rw [failed] at status
        cases status
    · rw [runs.status?_of_underway] at failed
      cases failed
    · rw [gone.status?_of_gone.1] at failed
      refine List.mem_map_of_mem (List.mem_filter.mpr ⟨hx, ?_⟩)
      exact (Outcome.failure?_isSome_iff _).mpr (Option.some.inj failed)
    · rw [gone.status?_of_gone.1] at failed
      cases failed
  · intro told
    obtain ⟨x, hx, rfl⟩ := List.mem_map.mp told
    obtain ⟨ended, failed⟩ := List.mem_filter.mp hx
    rw [(books.ended x ended).status?_of_gone.1, (Outcome.failure?_isSome_iff _).mp failed]

theorem Occurrence.eq_of_mem_ends {x : Ending} (h : x ∈ e.ends) : ∃ w s u,
    e = .answered (.question (.work w)) s x.outcome u ∧ s.running = some x.task := by
  unfold Occurrence.ends at h
  split at h
  · next w s o u =>
    obtain ⟨task, running, rfl⟩ := List.mem_map.mp h
    exact ⟨w, s, u, rfl, Option.mem_toList.mp running⟩
  · simp at h

/-- A task ends as the call has ended that it was spawned with. -/
theorem call_of_ending {acts : List Act}
    (shown : Resumption.Shows (watched config) (session config acts (.initial .deferred kind))
      past e) {x : Ending} (ended : x ∈ past.endings) :
    ∃ w s u, (.answered (.question (.work w)) s x.outcome u : Occurrence) ∈ past ∧
      s.running = some x.task ∧
      ⟨x.task, w⟩ ∈ (Chronicle.spawned (past ++ [e])).map (·.job) := by
  have books := booked_of_path (path_of_session rfl shown)
  obtain ⟨y, there, ends⟩ := List.mem_flatMap.mp ended
  obtain ⟨w, s, u, rfl, running⟩ := Occurrence.eq_of_mem_ends ends
  refine ⟨w, s, u, there, running, ?_⟩
  -- the call was asked for before, and nothing but spawned jobs is put to work
  obtain ⟨first, rest, rfl⟩ := List.mem_iff_append.mp there
  obtain ⟨before, inner, rfl, -⟩ := (shown.earlier (List.append_assoc _ _ _)).unfolds
  have asked : (⟨x.task, w⟩ : Job) ∈ Occurrence.invokes (.asked (.question (.work w)) s) := by
    simp [Occurrence.invokes, running]
  rw [← books.jobs]
  refine List.mem_append_left _ (books.taken.subset (List.mem_flatMap.mpr ⟨_, ?_, asked⟩))
  simp

/-! ## What a failure does not stop -/

/-- What is in the queue when something happens is dequeued in its order, followed by what is
spawned later on. Each job in the queue is put to work unless its task is cancelled. -/
structure ServedBy (rest : Chronicle) (t : State) (x : Occurrence) : Prop where
  dequeued : Chronicle.dequeued (x :: rest) = x.state.scheduler.jobs ++ rest.spawned.map (·.job)
  run : ∀ job ∈ x.state.scheduler.jobs, job ∈ rest.invoked ∨
    t.scheduler.status? job.task = some .cancelled

/-- When the queue is empty, all that was in it before has been dealt with. -/
theorem servedBy_of_path {before rest : Chronicle} {x e : Occurrence}
    (path : Path (.initial .deferred kind) ((before ++ x :: rest) ++ [e]))
    (spawns : e.spawns = []) (invokes : e.invokes = []) (empty : e.state.scheduler.jobs = []) :
    ServedBy rest e.state x := by
  have books := booked_iff.mp (booked_of_path path)
  have whole : (before ++ x :: rest) ++ [e] = (before ++ [x]) ++ (rest ++ [e]) := by simp
  have earlier : Booked before x := booked_of_path (whole ▸ path).earlier
  have spawned : Chronicle.spawned (before ++ x :: rest)
      = Chronicle.spawned (before ++ [x]) ++ rest.spawned := by
    simp [Chronicle.spawned]
  have invoked : Chronicle.invoked (before ++ x :: rest)
      = Chronicle.invoked (before ++ [x]) ++ rest.invoked := by
    simp [Chronicle.invoked]
  rw [spawns, invokes, List.append_nil, List.append_nil, spawned, invoked,
    Chronicle.dequeued_append] at books
  have dequeued : Chronicle.dequeued (x :: rest)
      = x.state.scheduler.jobs ++ rest.spawned.map (·.job) := by
    have jobs := books.jobs
    rw [empty, List.append_nil, List.map_append, ← earlier.jobs, List.append_assoc] at jobs
    exact List.append_cancel_left jobs
  refine ⟨dequeued, fun job queued => ?_⟩
  by_cases worked : job ∈ Chronicle.invoked (before ++ [x]) ++ rest.invoked
  · refine Or.inl ((List.mem_append.mp worked).resolve_left fun already => ?_)
    exact Ledger.notMem_invoked earlier queued (List.mem_map_of_mem already)
  · have gone : job ∈ before.dequeued ++ Chronicle.dequeued (x :: rest) := by
      rw [dequeued]
      exact List.mem_append_right _ (List.mem_append_left _ queued)
    exact Or.inr (books.skipped job gone worked).status?_of_gone.1

/-- After the work of a task the drain goes on. -/
theorem drain_of_worked (path : Path (.initial .deferred kind) (past ++ [e])) {w : Work}
    {s u : State} {o : Outcome Raise Value}
    (worked : past.getLast? = some (.answered (.question (.work w)) s o u)) :
    ∃ ran v, e = .asked (.question (.drain ran)) v ∧ v.scheduler.jobs = u.scheduler.jobs := by
  have busy : ¬ past.AtRest := fun rest => rest _ worked
  obtain ⟨-, follows, -⟩ := path_concat_iff.mp path
  cases follows with
  | drifts rest drift plain => exact (busy rest).elim
  | spawned rest drift state kept spawns => exact (busy rest).elim
  | emptied last | drained last | skipped last | invoked last =>
      rw [worked] at last
      cases last
  | settled last =>
      rw [worked] at last
      cases last
      refine ⟨_, _, rfl, ?_⟩
      rw [State.settle_scheduler]
      simp [Scheduler.jobs, Scheduler.leave, Scheduler.finish]

/-! ## At every moment -/

/-- All failures are accounted for when something happens. -/
structure Accounted (config : Config) (past : Chronicle) (e : Occurrence) : Prop where
  /-- What has been handed out, followed by what the host is shown if it asks now, are the failures
  of the tasks that have failed, in the order in which they have ended. -/
  told : ∃ kept, Exec.runCommand .failures e.state
      = (.done (.ok (.failures kept [])) e.state : Asking (Outcome Raise TaskReply)) ∧
    List.Forall₂ (Reports (Chronicle.spawned (past ++ [e]))) past.failed
      (Chronicle.handedOut (past ++ [e]) ++ kept)
  /-- A task is spawned once, so a failure says where. -/
  spawned : ((Chronicle.spawned (past ++ [e])).map (·.job.task)).Nodup
  /-- A task ends once, -/
  once : (past.endings.map (·.task)).Nodup
  /-- as the call has ended that it was spawned with, -/
  called : ∀ x ∈ past.endings, ∃ w s u,
    (.answered (.question (.work w)) s x.outcome u : Occurrence) ∈ past ∧
    s.running = some x.task ∧ ⟨x.task, w⟩ ∈ (Chronicle.spawned (past ++ [e])).map (·.job)
  /-- and that is its status. -/
  ended : ∀ x ∈ past.endings, e.state.scheduler.status? x.task = some x.outcome.finalStatus
  /-- The tasks that have failed are those whose failure is told. -/
  failed : ∀ task, e.state.scheduler.status? task = some .failed ↔
    task ∈ past.failed.map (·.task)
  /-- When the work of a task has ended, however it did, the drain goes on with the same queue. -/
  goesOn : ∀ w s o u, past.getLast? = some (.answered (.question (.work w)) s o u) →
    ∃ ran v, e = .asked (.question (.drain ran)) v ∧ v.scheduler.jobs = u.scheduler.jobs
  /-- When a drain is over, all that was in the queue while it lasted has been served. -/
  served : ∀ ran s n t, e = .answered (.question (.drain ran)) s n t →
    ∃ before meantime, past = before ++ .asked (.question (.drain ran)) s :: meantime ∧
      Resumption.Unfolds (watched config) (watched config (.question (.drain ran)) s) meantime n t ∧
      t.scheduler.jobs = [] ∧
      ∀ first x rest, .asked (.question (.drain ran)) s :: meantime = first ++ x :: rest →
        ServedBy rest t x

/-- **Every failure is accounted for** at every moment of every session. -/
theorem accounted_of_session {acts : List Act}
    (shown : Resumption.Shows (watched config) (session config acts (.initial .deferred .buffer))
      past e) : Accounted config past e := by
  have path := path_of_session rfl shown
  have books := booked_of_path path
  refine { told := ?_, spawned := ?_, once := (List.nodup_append.mp books.nodup_started).2.1,
           called := fun x => call_of_ending shown,
           ended := fun x hx => (books.ended x hx).status?_of_gone.1,
           failed := books.failed_iff, goesOn := fun _ _ _ _ => drain_of_worked path,
           served := ?_ }
  · obtain ⟨-, delivered, told⟩ : e.state.sink.Holds _ past.failed _ .buffer := held_of_path path
    refine ⟨e.state.sink.kept.toList, ?_, told⟩
    have deferred : e.state.scheduler.strategy = .deferred := books.deferred
    have reply : Exec.runCommand .failures e.state = (.done (.ok (.failures
        (Exec.ordered e.state e.state.sink.kept) (Exec.ordered e.state e.state.sink.delivered)))
        e.state : Asking (Outcome Raise TaskReply)) := rfl
    rw [reply]
    simp [Exec.ordered, deferred, Strategy.isBackground, delivered]
  · have tasks : (Chronicle.spawned (past ++ [e])).map (·.job.task) = e.state.scheduler.ids :=
      books.numbered
    rw [tasks]
    exact e.state.scheduler.nodup_ids
  · rintro ran s n t rfl
    obtain ⟨before, meantime, rfl, run⟩ := shown.unfolds
    have empty : t.scheduler.jobs = [] := (jobTurns_of_unfolds run).jobs_eq_nil
    refine ⟨before, meantime, rfl, run, empty, fun first x rest split => ?_⟩
    rw [split, ← List.append_assoc] at path
    exact servedBy_of_path path rfl rfl empty

/-- A task spawns another one and fails. The other one is run by the same drain and fails as well,
and the host is told of both. -/
theorem accounted_of_session_nested :
    let nested : TaskCommand := .spawn "inner" [.throw .nil none] [] ⟨2, 1⟩
    let acts : List Act := [.command (.spawn "outer" [.command nested, .throw .nil none] [] ⟨1, 1⟩),
      .command .runPending]
    ∃ past s o t,
      Resumption.Shows (watched .standard)
        (session .standard acts (.initial .deferred .buffer)) past
        (.answered (.command .runPending) s o t) ∧
      t.sink.kept.toList.map (·.task) = [⟨1⟩, ⟨2⟩] ∧
      Accounted .standard past (.answered (.command .runPending) s o t) := by
  intro nested acts
  let work : Work := .perform "outer" [.command nested, .throw .nil none] []
  let s : State := { (State.initial .deferred .buffer).spawn work ⟨1, 1⟩ with held := [⟨1⟩] }
  have failed : (Resumption.run (Interpreter.bodies .standard) 30
      (Exec.runCommand .runPending s : Asking (Outcome Raise TaskReply))).map
      (·.2.sink.kept.toList.map (·.task)) = some [⟨1⟩, ⟨2⟩] := by
    decide +kernel
  obtain ⟨⟨o, t⟩, run, kept⟩ := Option.map_eq_some_iff.mp failed
  obtain ⟨meantime, unfolds⟩ := history_of_run run
  have shown : Resumption.Shows (watched .standard)
      (session .standard acts (.initial .deferred .buffer)) _
      (.answered (.command .runPending) s o t) :=
    .after (.done _ _) (.answered unfolds)
  exact ⟨_, s, o, t, shown, kept, accounted_of_session shown⟩

end StatementEngine
