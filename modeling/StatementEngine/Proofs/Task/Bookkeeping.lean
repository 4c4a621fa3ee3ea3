import StatementEngine.Proofs.Task.Progress

/-!
# The bookkeeping of the deferred scheduler

**Queue, table and numbers agree at every moment** (`Bookkeeping`), whatever is spawned and asked to
stop, and by whom, also while the queue is drained.

* Tasks are numbered 1, 2, 3 and so on. The numbers of the jobs that have been dequeued, followed by
  those in the queue, are all numbers in their order.
* The table holds the tasks that are queued or running and no others.
* Whoever has drained the queue outside of all tasks finds it empty, and the table too, and is told
  how many jobs the drain has dequeued (`Chronicle.Drained`). Tasks that drain the queue themselves
  count what they dequeue for themselves.

The main result is `bookkeeping_of_session`.
-/

namespace StatementEngine

variable {config : Config} {kind : SinkKind} {start : State} {past : Chronicle} {e : Occurrence}
  {s t : State}

/-! ## Numbers, queue and table -/

/-- The tasks in the queue, oldest first. -/
def Scheduler.queued (u : Scheduler) : List TaskId := u.jobs.map (·.task)

theorem Scheduler.numbers_ids (u : Scheduler) :
    u.ids.map (·.number) = List.range' 1 u.records.size := by
  unfold ids
  rw [List.map_map, List.range'_eq_map_range]
  refine List.map_congr_left fun i _ => ?_
  exact Nat.add_comm i 1

theorem Scheduler.sorted_ids (u : Scheduler) :
    u.ids.Pairwise fun t t' => t.number < t'.number := by
  have sorted : (u.ids.map (·.number)).Pairwise (· < ·) := by
    rw [u.numbers_ids]
    exact List.pairwise_lt_range'
  exact List.pairwise_map.mp sorted

/-- A task is in the table if its turn has not passed. -/
theorem Scheduler.HasAt.isLive {u : Scheduler} {t : TaskId} {stage : Stage} (h : u.HasAt t stage) :
    u.isLive t = true ↔ ∀ st, stage ≠ .gone st := by
  obtain ⟨r, found, at_⟩ := h
  have live : u.isLive t = r.live := by simp [Scheduler.isLive, found]
  rw [live]
  cases stage with
  | waiting | underway => simp [at_.1]
  | gone st => simp [at_.1]

theorem Scheduler.mem_table {u : Scheduler} {t : TaskId} :
    t ∈ u.table ↔ u.isLive t = true := by
  have table : u.table = u.ids.filter u.isLive := rfl
  rw [table, List.mem_filter]
  refine ⟨And.right, fun live => ⟨?_, live⟩⟩
  unfold isLive at live
  cases found : u.task? t with
  | none => simp [found] at live
  | some r => exact mem_ids.mpr ⟨r, found⟩

/-- The number of tasks in the table. -/
theorem Scheduler.liveCount_eq (u : Scheduler) : u.liveCount = u.table.length := by
  have table : u.table = u.ids.filter u.isLive := rfl
  have records : u.records.toList.map (·.live) = u.ids.map u.isLive := by
    refine List.ext_getElem? fun i => ?_
    unfold ids
    by_cases lt : i < u.records.size
    · simp [lt, isLive, task?]
    · simp [lt]
  have counted := congrArg (List.count true) records
  rw [table, ← List.countP_eq_length_filter]
  unfold liveCount
  rw [← Array.countP_toList]
  simpa [List.count, List.countP_map, Function.comp_def] using counted

/-- The table holds what is queued or running. -/
theorem Ledger.mem_table_iff {spawned : List Spawning} {dequeued invoked : List Job}
    {underway : List TaskId} {endings : List Ending} {u : Scheduler}
    (h : Ledger spawned dequeued invoked underway endings u) {t : TaskId} :
    t ∈ u.table ↔ t ∈ u.queued ∨ u.status? t = some .running := by
  rw [h.running_iff, Scheduler.mem_table]
  constructor
  · intro live
    have known : t ∈ u.ids := (List.mem_filter.mp (Scheduler.mem_table.mpr live)).1
    rcases h.stages known with ⟨queued, -⟩ | ⟨running, -⟩ | ⟨x, -, -, gone⟩ | gone
    · exact Or.inl queued
    · exact Or.inr running
    · exact absurd rfl (gone.isLive.mp live _)
    · exact absurd rfl (gone.isLive.mp live _)
  · intro there
    rcases there with queued | running
    · obtain ⟨job, there, rfl⟩ := List.mem_map.mp queued
      exact (h.waits job there).isLive.mpr (by simp)
    · exact (h.runs t running).isLive.mpr (by simp)

/-- Where nothing is queued and nothing is being run, the table is empty. -/
theorem Ledger.table_eq_nil {spawned : List Spawning} {dequeued invoked : List Job}
    {endings : List Ending} {u : Scheduler} (h : Ledger spawned dequeued invoked [] endings u)
    (empty : u.jobs = []) : u.table = [] := by
  rw [List.eq_nil_iff_forall_not_mem]
  intro t there
  rw [h.mem_table_iff, h.running_iff, Scheduler.queued, empty] at there
  simp at there

/-! ## Draining the queue -/

/-- The turn of a job that has been taken from the queue: what happens, and the state afterwards. -/
inductive JobTurn (config : Config) (s : State) (job : Job) (left : Scheduler) :
    Chronicle → State → Prop
  /-- The task is passed over. -/
  | skipped {scheduler : Scheduler} (refused : left.start job.task = (false, scheduler)) :
      JobTurn config s job left [] { s with scheduler := scheduler.leave job.task }
  /-- The task works, and is settled. -/
  | worked {scheduler : Scheduler} {busy u : State} {meantime : Chronicle} {o : Outcome Raise Value}
      (begun : left.start job.task = (true, scheduler))
      (task : busy.running = some job.task)
      (run : Resumption.Unfolds (watched config) (watched config (.question (.work job.work)) busy)
        meantime o u) :
      JobTurn config s job left
        (.asked (.question (.work job.work)) busy ::
          (meantime ++ [.answered (.question (.work job.work)) busy o u]))
        (State.settle { u with running := s.running } job.task o)

/-- What happens while the queue is drained, turn by turn, with the number of jobs and the state at
the end. -/
inductive JobTurns (config : Config) : Nat → State → Chronicle → Nat → State → Prop
  | empty {ran : Nat} {s : State} (none : s.scheduler.take? none = none) :
      JobTurns config ran s [] ran s
  | turn {ran n : Nat} {s next t : State} {job : Job} {left : Scheduler} {turn rest : Chronicle}
      (taken : s.scheduler.take? none = some (job, left))
      (first : JobTurn config s job left turn next)
      (others : JobTurns config (ran + 1) next rest n t) :
      JobTurns config ran s (turn ++ .asked (.question (.drain (ran + 1))) next ::
        (rest ++ [.answered (.question (.drain (ran + 1))) next n t])) n t

theorem JobTurn.running {job : Job} {left : Scheduler} {turn : Chronicle} {next : State}
    (h : JobTurn config s job left turn next) : next.running = s.running := by
  cases h with
  | skipped refused => rfl
  | worked begun task run => exact State.settle_running _ _ _

/-- A drain takes turns. -/
theorem jobTurns_of_unfolds {ran n : Nat} {inner : Chronicle}
    (run : Resumption.Unfolds (watched config) (watch (Exec.drainBody ran s)) inner n t) :
    JobTurns config ran s inner n t := by
  -- the rest of a drain is asked for by the drain itself, so the induction is on what happens
  induction size : inner.length using Nat.strongRecOn generalizing inner ran s with
  | ind m ih =>
  have goesOn {next : State} {turn rest : Chronicle} {job : Job} {left : Scheduler}
      (taken : s.scheduler.take? none = some (job, left))
      (first : JobTurn config s job left turn next)
      (split : inner = turn ++ rest)
      (run : Resumption.Unfolds (watched config) (watch (.ask (.drain (ran + 1)) next .done))
        rest n t) : JobTurns config ran s inner n t := by
    obtain ⟨_, _, deeper, _, drained, done, rfl⟩ := Resumption.unfolds_ask_iff.mp run
    obtain ⟨rfl, rfl, rfl⟩ := Resumption.unfolds_done_iff.mp done
    have shorter : deeper.length < m := by
      rw [← size, split]
      simp only [List.length_append, List.length_cons]
      omega
    rw [split]
    exact .turn taken first (ih deeper.length shorter drained rfl)
  rw [Exec.drainBody_eq] at run
  cases taken : s.scheduler.take? none with
  | none =>
      rw [taken] at run
      obtain ⟨rfl, rfl, rfl⟩ := Resumption.unfolds_done_iff.mp run
      exact .empty taken
  | some found =>
      obtain ⟨job, left⟩ := found
      rw [taken] at run
      dsimp only at run
      cases started : left.start job.task with
      | mk yes scheduler =>
          rw [started] at run
          cases yes with
          | false => exact goesOn taken (.skipped started) (List.nil_append _).symm run
          | true =>
              obtain ⟨o, u, work, rest, worked, goes, rfl⟩ := Resumption.unfolds_ask_iff.mp run
              exact goesOn taken (.worked started rfl worked) (by simp) goes

/-- No job is left at the end. -/
theorem JobTurns.jobs_eq_nil {ran n : Nat} {inner : Chronicle}
    (h : JobTurns config ran s inner n t) : t.scheduler.jobs = [] := by
  induction h with
  | empty none => exact Scheduler.jobs_eq_nil_of_take? none
  | turn _ _ _ ih => exact ih

/-- What has happened outside of all tasks. -/
def Chronicle.ofHost (past : Chronicle) : Chronicle := past.filter (·.state.running.isNone)

/-- In the meantime the queue has been drained and the table is empty; so many jobs have been
dequeued outside of all tasks. -/
structure Chronicle.Drained (meantime : Chronicle) (ran : Nat) (u : Scheduler) : Prop where
  queue : u.jobs = []
  table : u.table = []
  ran : ran = meantime.ofHost.dequeued.length

section Drains
variable {w : Work} {o : Outcome Raise Value} {inner before : Chronicle}

/-- While a task works, nothing happens outside of all tasks. -/
theorem ofHost_of_work {task : TaskId} (running : s.running = some task)
    (run : Resumption.Unfolds (watched config) (watched config (.question (.work w)) s) inner o t)
    (path : Path start (before ++ .asked (.question (.work w)) s ::
      (inner ++ [.answered (.question (.work w)) s o t]))) :
    Chronicle.ofHost (.asked (.question (.work w)) s ::
      (inner ++ [.answered (.question (.work w)) s o t])) = [] := by
  have begun : Chronicle.unfinished (before ++ [.asked (.question (.work w)) s])
      = task :: before.unfinished := by
    rw [Chronicle.unfinished_concat]
    show s.running.toList ++ before.unfinished = _
    rw [running]
    rfl
  have inTask (first rest : Chronicle) (x : Occurrence) (split : inner ++
      [.answered (.question (.work w)) s o t] = first ++ x :: rest)
      (within : Chronicle.unfinished (before ++ [.asked (.question (.work w)) s]) <:+
        Chronicle.underway (before ++ [.asked (.question (.work w)) s] ++ first) x) :
      x.state.running ≠ none := by
    rw [split, List.append_cons, ← List.append_assoc, List.append_cons] at path
    rw [(path_concat_iff.mp path.earlier).2.2]
    obtain ⟨stack, same⟩ := within
    rw [← same, begun]
    cases stack with
    | nil => simp
    | cons t stack => simp
  unfold Chronicle.ofHost
  rw [List.filter_eq_nil_iff]
  intro x hx
  rw [Option.isNone_iff_eq_none]
  rcases List.mem_cons.mp hx with rfl | hx
  · rw [Resumption.Event.state, running]
    simp
  · rcases List.mem_append.mp hx with hx | hx
    · obtain ⟨first, rest, rfl⟩ := List.mem_iff_append.mp hx
      exact inTask first _ x (List.append_assoc _ _ _) (suffix_underway_of_shows (run.shows rfl))
    · obtain rfl := List.mem_singleton.mp hx
      refine inTask inner [] _ rfl ?_
      show _ <:+ Chronicle.unfinished (before ++ [.asked (.question (.work w)) s] ++ inner)
      simp only [unfinished_append_of_unfolds run, List.suffix_refl]

theorem JobTurn.ofHost_eq_nil {job : Job} {left : Scheduler} {turn : Chronicle} {next : State}
    (h : JobTurn config s job left turn next) (path : Path start (before ++ turn)) :
    turn.ofHost = [] := by
  cases h with
  | skipped refused => rfl
  | worked begun task run => exact ofHost_of_work task run path

theorem ofHost_append (first rest : Chronicle) :
    Chronicle.ofHost (first ++ rest) = first.ofHost ++ rest.ofHost :=
  List.filter_append first rest

theorem dequeued_ofHost_answered (o : Occasion) (s : State) (a : o.Reply) (t : State) :
    (Chronicle.ofHost [.answered o s a t]).dequeued = [] := by
  unfold Chronicle.ofHost Chronicle.dequeued
  rw [List.flatMap_eq_nil_iff]
  intro x hx
  rw [List.mem_singleton.mp (List.mem_filter.mp hx).1]
  rfl

/-- The jobs that a drain dequeues are the first one and those that the rest of it dequeues. -/
theorem dequeued_ofHost_of_drain {ran n : Nat} {next : State} {turn rest : Chronicle} {job : Job}
    {left : Scheduler} (outside : s.running = none)
    (taken : s.scheduler.take? none = some (job, left)) (quiet : turn.ofHost = []) :
    (Chronicle.ofHost (.asked (.question (.drain ran)) s :: (turn ++
      .asked (.question (.drain (ran + 1))) next ::
        (rest ++ [.answered (.question (.drain (ran + 1))) next n t])))).dequeued.length =
      1 + (Chronicle.ofHost
        (.asked (.question (.drain (ran + 1))) next :: rest)).dequeued.length := by
  have first : Chronicle.ofHost [.asked (.question (.drain ran)) s]
      = [.asked (.question (.drain ran)) s] := by
    simp [Chronicle.ofHost, Resumption.Event.state, outside]
  have one : Occurrence.takes (.asked (.question (.drain ran)) s) = [job] := by
    show s.scheduler.jobs.take 1 = [job]
    rw [(Scheduler.of_take? taken).1]
    rfl
  rw [← List.singleton_append, ofHost_append, first, ofHost_append, quiet, List.nil_append,
    ← List.cons_append, ofHost_append, Chronicle.dequeued_append, Chronicle.dequeued_append,
    dequeued_ofHost_answered, List.append_nil, Chronicle.dequeued_cons, one, List.length_append]
  rfl

/-- A drain outside of all tasks counts the jobs that it dequeues. -/
theorem JobTurns.count {before inner : Chronicle} {ran n : Nat} (outside : s.running = none)
    (h : JobTurns config ran s inner n t)
    (path : Path start (before ++ .asked (.question (.drain ran)) s :: inner)) :
    n = ran + (Chronicle.ofHost (.asked (.question (.drain ran)) s :: inner)).dequeued.length := by
  induction h generalizing before with
  | @empty ran s none =>
      simp [Chronicle.ofHost, Chronicle.dequeued, Resumption.Event.state, outside, Occurrence.takes,
        Scheduler.jobs_eq_nil_of_take? none]
  | @turn ran n s next t job left turn rest taken first others ih =>
      have outside' : next.running = none := first.running.trans outside
      have whole : Path start (((before ++ [.asked (.question (.drain ran)) s] ++ turn) ++
          .asked (.question (.drain (ran + 1))) next :: rest) ++
          [.answered (.question (.drain (ran + 1))) next n t]) := by
        simpa using path
      have quiet : turn.ofHost = [] := first.ofHost_eq_nil whole.earlier.earlier
      rw [dequeued_ofHost_of_drain outside taken quiet, ih outside' whole.earlier, Nat.add_assoc]

end Drains

/-- The occasion drains the queue, for a host or for a script. -/
def Occasion.Drains : Occasion → Prop
  | .command .runPending | .command .joinAll => True
  | .question (.call (.builtin .runPending) _) => True
  | _ => False

/-- What is replied when so many jobs have been dequeued. -/
def Occasion.Tells (ran : Nat) : (o : Occasion) → o.Reply → Prop
  | .command .runPending, reply => reply = .ok (.ran ran)
  | .command .joinAll, reply => reply = .ok .done
  | .question (.call (.builtin .runPending) _), reply => reply = .ok (.ofNat ran)
  | _, _ => False

/-- What drains the queue does nothing else. -/
theorem Occasion.Drains.body (config : Config) {o : Occasion} (drains : o.Drains)
    (deferred : s.scheduler.strategy = .deferred) :
    ∃ next : Nat → State → Watching o.Reply,
      watched config o s = .ask (.question (.drain 0)) s next ∧
      ∀ n t, t.scheduler.strategy = .deferred → ∃ a, next n t = .done a t ∧ o.Tells n a := by
  have drain {ε : Type} : (Exec.runPending : Exec ε Nat) s
      = .ask (.drain 0) s fun ran t => .done (.ok ran) t := by
    simp [Exec.runPending, deferred, Strategy.isBackground, Exec.drain]
  match o with
  | .command .runPending =>
      refine ⟨fun n t => .done (.ok (.ran n)) t, ?_, fun n t _ => ⟨_, rfl, rfl⟩⟩
      show watch ((Exec.runPending >>= fun ran => (pure (.ran ran) : Exec Raise TaskReply)) s) = _
      rw [Exec.bind_apply, drain]
      rfl
  | .question (.call (.builtin .runPending) args) =>
      refine ⟨fun n t => .done (.ok (.ofNat n)) t, ?_, fun n t _ => ⟨_, rfl, rfl⟩⟩
      show watch ((Exec.runPending >>= fun ran => (pure (.ofNat ran) : Exec Raise Value)) s) = _
      rw [Exec.bind_apply, drain]
      rfl
  | .command .joinAll =>
      let wait : Exec Raise TaskReply := Exec.waitFor .allTasks >>= fun _ => pure .done
      refine ⟨fun _ t => watch (wait t), ?_, fun n t deferred => ⟨_, ?_, rfl⟩⟩
      · show watch (((Exec.runPending >>= fun _ => Exec.waitFor .allTasks) >>= fun _ =>
          (pure .done : Exec Raise TaskReply)) s) = _
        rw [bind_assoc, Exec.bind_apply, drain]
        rfl
      · simp [wait, Exec.waitFor, Exec.bind_apply, Exec.read, deferred, Strategy.isBackground]

/-! ## The books at every moment -/

/-- What is replied to questions about the table. -/
structure State.ShowsTable (s : State) : Prop where
  handle : ∀ t, (∃ view, Exec.runCommand (.handle t) s
      = (.done (.ok (.handle view)) s : Asking (Outcome Raise TaskReply)) ∧ view.task = t) ↔
    t ∈ s.scheduler.table
  live : Exec.runCommand .live s
    = (.done (.ok (.live s.scheduler.table.length)) s : Asking (Outcome Raise TaskReply))
  tasks : ∃ views, Exec.runCommand .tasks s
      = (.done (.ok (.tasks views)) s : Asking (Outcome Raise TaskReply)) ∧
    views.map (·.task) = s.scheduler.table

theorem Scheduler.view?_of_mem_table {u : Scheduler} {t : TaskId} (h : t ∈ u.table) :
    ∃ view, u.view? t = some view ∧ view.task = t := by
  obtain ⟨r, found⟩ := mem_ids.mp (List.mem_filter.mp h).1
  exact ⟨⟨t, r.status, r.position⟩, by simp [view?, found], rfl⟩

theorem State.showsTable (s : State) : s.ShowsTable where
  handle t := by
    by_cases live : s.scheduler.isLive t = true
    · have there : t ∈ s.scheduler.table := Scheduler.mem_table.mpr live
      obtain ⟨view, found, same⟩ := Scheduler.view?_of_mem_table there
      refine iff_of_true ⟨view, ?_, same⟩ there
      simp [Exec.runCommand, Exec.read, live, found]
    · refine iff_of_false ?_ fun there => live (Scheduler.mem_table.mp there)
      rintro ⟨view, reply, -⟩
      simp [Exec.runCommand, Exec.read, live] at reply
  live := by
    rw [← Scheduler.liveCount_eq]
    rfl
  tasks := by
    refine ⟨_, rfl, ?_⟩
    have views : ∀ tasks : List TaskId, (∀ t ∈ tasks, t ∈ s.scheduler.table) →
        (tasks.filterMap s.scheduler.view?).map (·.task) = tasks := by
      intro tasks known
      induction tasks with
      | nil => rfl
      | cons t rest ih =>
          obtain ⟨view, found, same⟩ := Scheduler.view?_of_mem_table (known t List.mem_cons_self)
          rw [List.filterMap_cons, found]
          simp [same, ih fun t h => known t (List.mem_cons_of_mem _ h)]
    exact views _ fun _ h => h

/-- The books are in order when something happens. -/
structure Bookkeeping (config : Config) (past : Chronicle) (e : Occurrence) : Prop where
  /-- Tasks are numbered 1, 2, 3 and so on as they are spawned. -/
  numbered : (Chronicle.spawned (past ++ [e])).map (·.job.task.number)
    = List.range' 1 (Chronicle.spawned (past ++ [e])).length
  /-- No other tasks are known. -/
  known : ∀ t, (e.state.scheduler.status? t).isSome ↔
    t ∈ (Chronicle.spawned (past ++ [e])).map (·.job.task)
  /-- Jobs are dequeued in the order in which they were spawned, each of them once, and those that
  have not been dequeued are in the queue. -/
  queue : past.dequeued ++ e.state.scheduler.jobs
    = (Chronicle.spawned (past ++ [e])).map (·.job)
  /-- The table holds the tasks that are queued or running. -/
  table : ∀ t, t ∈ e.state.scheduler.table ↔
    t ∈ e.state.scheduler.queued ∨ e.state.scheduler.status? t = some .running
  /-- Both are in the order of the numbers. -/
  sorted : e.state.scheduler.queued.Pairwise (·.number < ·.number) ∧
    e.state.scheduler.table.Pairwise (·.number < ·.number)
  shown : e.state.ShowsTable
  /-- Whoever has drained the queue outside of all tasks leaves it empty, and the table too, and is
  told how many jobs have been dequeued for it. -/
  drained : ∀ o s a t, e = .answered o s a t → o.Drains → s.running = none →
    ∃ (before meantime : Chronicle) (ran : Nat), past = before ++ .asked o s :: meantime ∧
      Resumption.Unfolds (watched config) (watched config o s) meantime a t ∧
      meantime.Drained ran t.scheduler ∧ o.Tells ran a

/-- When something is over that has begun outside of all tasks, no task is being run. -/
theorem underway_of_outside {o : Occasion} {a : o.Reply} {before meantime : Chronicle}
    (outside : s.running = none) (path : Path start (before ++ [.asked o s]))
    (run : Resumption.Unfolds (watched config) (watched config o s) meantime a t) :
    Chronicle.underway (before ++ .asked o s :: meantime) (.answered o s a t) = [] := by
  have running := (path_concat_iff.mp path).2.2
  rw [underway_answered run]
  exact List.head?_eq_none_iff.mp (running.symm.trans outside)

/-- Whoever drains the queue outside of all tasks leaves it empty. -/
theorem drained_of_shows {acts : List Act} {o : Occasion} {a : o.Reply}
    (shown : Resumption.Shows (watched config) (session config acts (.initial .deferred kind)) past
      (.answered o s a t)) (drains : o.Drains) (outside : s.running = none) :
    ∃ (before meantime : Chronicle) (ran : Nat), past = before ++ .asked o s :: meantime ∧
      Resumption.Unfolds (watched config) (watched config o s) meantime a t ∧
      meantime.Drained ran t.scheduler ∧ o.Tells ran a := by
  have path (first rest : Chronicle) (x : Occurrence)
      (split : past ++ [.answered o s a t] = first ++ x :: rest) :
      Path (.initial .deferred kind) (first ++ [x]) :=
    path_of_session rfl (shown.earlier split)
  obtain ⟨before, meantime, rfl, run⟩ := shown.unfolds
  have asked : Path (.initial .deferred kind) (before ++ [.asked o s]) :=
    path _ _ _ (List.append_assoc _ _ _)
  have deferred : s.scheduler.strategy = .deferred := (booked_of_path asked).deferred
  -- the queue is drained, and then the reply is given
  obtain ⟨next, body, replies⟩ := drains.body config deferred
  have goes := run
  rw [body] at goes
  obtain ⟨ran, u, inner, rest, drained, replied, rfl⟩ := Resumption.unfolds_ask_iff.mp goes
  have ended : Path (.initial .deferred kind)
      ((before ++ .asked o s :: .asked (.question (.drain 0)) s :: inner) ++
        [.answered (.question (.drain 0)) s ran u]) :=
    path _ (rest ++ [.answered o s a t]) _ (by simp)
  obtain ⟨b, done, told⟩ := replies ran u (booked_of_path ended).deferred
  rw [done] at replied
  obtain ⟨rfl, rfl, rfl⟩ := Resumption.unfolds_done_iff.mp replied
  have whole : Path (.initial .deferred kind)
      ((before ++ [.asked o s]) ++ .asked (.question (.drain 0)) s :: inner) := by
    simpa using ended.earlier
  have turns := jobTurns_of_unfolds drained
  have empty := turns.jobs_eq_nil
  refine ⟨before, _, ran, rfl, run, ⟨empty, ?_, ?_⟩, told⟩
  · have books := booked_of_path (path _ [] _ rfl)
    rw [Booked, underway_of_outside outside asked run] at books
    exact books.table_eq_nil empty
  · rw [← List.cons_append, ofHost_append, Chronicle.dequeued_append, dequeued_ofHost_answered,
      List.append_nil, turns.count outside whole, Nat.zero_add]

/-- **The books are in order at every moment of every session.** -/
theorem bookkeeping_of_session {acts : List Act}
    (shown : Resumption.Shows (watched config) (session config acts (.initial .deferred kind))
      past e) : Bookkeeping config past e := by
  have path := path_of_session rfl shown
  have books := booked_of_path path
  have tasks : (Chronicle.spawned (past ++ [e])).map (·.job.task) = e.state.scheduler.ids :=
    books.numbered
  refine { numbered := ?_, known := fun t => ?_, queue := books.jobs, table := fun t => ?_,
           sorted := ⟨?_, ?_⟩, shown := e.state.showsTable, drained := ?_ }
  · have size := congrArg List.length tasks
    have numbers := congrArg (List.map (·.number)) tasks
    rw [Scheduler.numbers_ids, List.map_map] at numbers
    simp only [List.length_map, Scheduler.ids, List.length_range] at size
    rw [size]
    exact numbers
  · rw [tasks, Scheduler.mem_ids, Scheduler.status?, Option.isSome_map, Option.isSome_iff_exists]
  · exact books.mem_table_iff
  · have all : past.dequeued.map (·.task) ++ e.state.scheduler.queued
        = e.state.scheduler.ids := by
      rw [← tasks, Scheduler.queued, ← List.map_append, books.jobs, List.map_map]
      rfl
    have sorted := e.state.scheduler.sorted_ids
    rw [← all] at sorted
    exact (List.pairwise_append.mp sorted).2.1
  · exact e.state.scheduler.sorted_ids.sublist List.filter_sublist
  · rintro o s a t rfl drains outside
    exact drained_of_shows shown drains outside

/-- A task spawns another one while the queue is drained. The host is told that two jobs have been
dequeued. -/
theorem bookkeeping_of_session_nested :
    let nested : TaskCommand := .spawn "inner" [] [] ⟨2, 1⟩
    let acts : List Act :=
      [.command (.spawn "outer" [.command nested] [] ⟨1, 1⟩), .command .runPending]
    ∃ past s t,
      Resumption.Shows (watched .standard)
        (session .standard acts (.initial .deferred .buffer)) past
        (.answered (.command .runPending) s (.ok (.ran 2)) t) ∧ s.running = none ∧
      Bookkeeping .standard past (.answered (.command .runPending) s (.ok (.ran 2)) t) := by
  intro nested acts
  let work : Work := .perform "outer" [.command nested] []
  let s : State := { (State.initial .deferred .buffer).spawn work ⟨1, 1⟩ with held := [⟨1⟩] }
  obtain ⟨meantime, t, unfolds⟩ : ∃ h t, Resumption.Unfolds (watched .standard)
      (watched .standard (.command .runPending) s) h (.ok (.ran 2)) t :=
    history_of_ran (n := 2) (show (Resumption.run _ 30 _).bind _ = _ by decide +kernel)
  have shown : Resumption.Shows (watched .standard)
      (session .standard acts (.initial .deferred .buffer)) _
      (.answered (.command .runPending) s (.ok (.ran 2)) t) :=
    .after (.done _ _) (.answered unfolds)
  exact ⟨_, s, t, shown, rfl, bookkeeping_of_session shown⟩

end StatementEngine
