import StatementEngine.Proofs.Task.Delivery
import StatementEngine.Proofs.Task.Progress

/-!
# The life of a task

**A task is pending, then it runs, then it is over** (`Lifecycle`). It leaves the queue once, so its
call is made at most once, and it is made exactly when the task is started.

* A task that is asked to stop while it is pending is cancelled at once (`Occasion.Cancels`). It is
  never started and nothing is reported of it.
* To ask a task to stop that is running or over changes nothing about its status.
* A statement that spawns adds a task only after its callee and its arguments have been evaluated
  (`SpawnStatement`).

The main result is `lifecycle_of_session`.
-/

namespace StatementEngine

variable {config : Config} {kind : SinkKind} {start : State} {past : Chronicle} {e : Occurrence}
  {s t : State} {task : TaskId}

/-! ## Asking a task to stop -/

/-- In the state, the occasion asks the task to stop. -/
def Occasion.Cancels (s : State) (task : TaskId) : Occasion → Prop
  | .command (.cancel t) | .command (.cancelQuietly t) => t = task ∧ s.held.contains task = true
  | .command .cancelAll => task ∈ s.scheduler.table
  | .question (.call (.builtin .cancel) args) => Exec.liveTask s args.head? = some task
  | .question (.call (.builtin .cancelAll) _) => task ∈ s.scheduler.table
  | _ => False

/-- It does so at once and asks nothing else of that task. -/
theorem Occasion.Cancels.body (config : Config) {o : Occasion} (h : o.Cancels s task) :
    ∃ a t, watched config o s = .done a t ∧
      t.scheduler.task? task = (s.scheduler.task? task).map Task.cancel := by
  let asked : State := { s with scheduler := s.scheduler.cancel task }
  have one : asked.scheduler.task? task = (s.scheduler.task? task).map Task.cancel := by
    show (s.scheduler.cancel task).task? task = _
    rw [Scheduler.cancel, Scheduler.task?_update, if_pos rfl]
  have all (there : task ∈ s.scheduler.table) :
      s.scheduler.cancelAll.task? task = (s.scheduler.task? task).map Task.cancel := by
    rw [Scheduler.cancelAll, Scheduler.task?_cancels, if_pos there]
  have held {reply : Exec Raise TaskReply} (holds : s.held.contains task = true) :
      Exec.onHeld task reply s = reply s := by
    unfold Exec.onHeld
    rw [Exec.bind_apply]
    show (if s.held.contains task then reply else pure .notFound) s = reply s
    rw [if_pos holds]
  cases o with
  | command c =>
      cases c with
      | cancel t =>
          obtain ⟨rfl, holds⟩ := h
          refine ⟨.ok ((asked.scheduler.status? t).elim .notFound .status), asked, ?_, one⟩
          show watch (Exec.onHeld t _ s) = _
          rw [held holds]
          rfl
      | cancelQuietly t =>
          obtain ⟨rfl, holds⟩ := h
          refine ⟨.ok .done, asked, ?_, one⟩
          show watch (Exec.onHeld t _ s) = _
          rw [held holds]
          rfl
      | cancelAll => exact ⟨_, _, rfl, all h⟩
      | _ => exact False.elim h
  | question q =>
      cases q with
      | call f args =>
          cases f with
          | builtin b =>
              cases b with
              | cancel =>
                  have live : Exec.liveTask s args.head? = some task := h
                  refine ⟨.ok (.bool true), asked, ?_, one⟩
                  show watch (Exec.callBuiltin .cancel args s) = _
                  dsimp only [Exec.callBuiltin]
                  rw [Exec.bind_apply]
                  simp only [Exec.read, Resumption.done_bind, live]
                  rfl
              | cancelAll => exact ⟨_, _, rfl, all h⟩
              | _ => exact False.elim h
          | _ => exact False.elim h
      | _ => exact False.elim h

theorem Scheduler.status?_of_cancel {u v : Scheduler}
    (asked : v.task? task = (u.task? task).map Task.cancel) :
    v.status? task = (u.status? task).map fun st => if st = .pending then .cancelled else st := by
  unfold status?
  rw [asked, Option.map_map, Option.map_map]
  rfl

/-! ## Statements that spawn -/

theorem Backlog.desks_eq_empty_of_push {b : Backlog} {job : Job} {w : Option WorkerId}
    (h : (b.push job w).desks = #[]) : b.desks = #[] := by
  have size : (b.push job w).desks.size = b.desks.size := by
    unfold push
    split
    · rfl
    · split
      · rfl
      · exact Array.size_setIfInBounds
  rw [h] at size
  exact Array.size_eq_zero_iff.mp size.symm

/-- How a statement ends that spawns a call: what has happened in the meantime, the outcome, the
state, and the tasks that are its own. -/
inductive SpawnStatement (config : Config) (p : Position) (scope : ScopeId) (s : State) :
    Expr → Chronicle → Outcome EngineError Completion → State → List Spawning → Prop
  /-- Nothing but a call can be spawned. -/
  | notCall {expr : Expr} (other : ∀ callee args, expr ≠ .call callee args) :
      SpawnStatement config p scope s expr []
        (.raised ((EngineError.ofKind .notInvokable).locate p)) s []
  /-- The callee or an argument has failed. -/
  | failed {callee : Expr} {args : List Expr} {meantime : Chronicle} {r : Raise} {t : State}
      (evaluated : Resumption.Unfolds (watched config)
        (watch (Exec.evaluateCall scope callee args s)) meantime (.raised r) t) :
      SpawnStatement config p scope s (.call callee args) meantime
        ((Outcome.raised r).located p) t []
  /-- A function of the host has panicked there. -/
  | panicked {callee : Expr} {args : List Expr} {meantime : Chronicle} {m : String} {t : State}
      (evaluated : Resumption.Unfolds (watched config)
        (watch (Exec.evaluateCall scope callee args s)) meantime (.panicked m) t) :
      SpawnStatement config p scope s (.call callee args) meantime (.panicked m) t []
  /-- The call waits for its turn. -/
  | spawned {callee : Expr} {args : List Expr} {meantime : Chronicle} {f : FunctionRef}
      {values : List Value} {t : State}
      (evaluated : Resumption.Unfolds (watched config)
        (watch (Exec.evaluateCall scope callee args s)) meantime (.ok (f, values)) t) :
      SpawnStatement config p scope s (.call callee args) meantime (.ok .empty)
        (t.spawn (.call f values) p) [⟨⟨t.scheduler.nextId, .call f values⟩, p⟩]

theorem spawnStatement_of_unfolds {p : Position} {expr : Expr} {scope : ScopeId} {cx : Context}
    {meantime : Chronicle} {o : Outcome EngineError Completion}
    (run : Resumption.Unfolds (watched config)
      (watched config (.question (.execute ⟨p, .spawn expr⟩ scope cx)) s) meantime o t)
    (noDesks : t.scheduler.backlog.desks = #[]) :
    SpawnStatement config p scope s expr meantime o t
      (Occurrence.spawns (.answered (.question (.execute ⟨p, .spawn expr⟩ scope cx)) s o t)) := by
  have body : watched config (.question (.execute ⟨p, .spawn expr⟩ scope cx)) s
      = watch (Exec.located p (Exec.runSpawn p expr scope) s) := rfl
  rw [body, Exec.located, watch_bind, Resumption.unfolds_bind_iff] at run
  obtain ⟨ended, u, first, rest, run, located, rfl⟩ := run
  obtain ⟨rfl, rfl, rfl⟩ := Resumption.unfolds_done_iff.mp located
  rw [List.append_nil]
  cases expr with
  | call callee args =>
      have parts : Exec.runSpawn p (.call callee args) scope
          = Exec.evaluateCall scope callee args >>= fun called =>
            (do Exec.modify (·.spawn (.call called.1 called.2) p); pure .empty) := rfl
      rw [parts, Exec.bind_apply, watch_bind, Resumption.unfolds_bind_iff] at run
      obtain ⟨c, v, meantime, rest, evaluated, goes, rfl⟩ := run
      cases c with
      | ok called =>
          obtain ⟨f, values⟩ := called
          obtain ⟨rfl, rfl, rfl⟩ := Resumption.unfolds_done_iff.mp goes
          rw [List.append_nil]
          have empty : v.scheduler.backlog.desks = #[] :=
            Backlog.desks_eq_empty_of_push noDesks
          have own : Occurrence.spawns (.answered (.question (.execute
              ⟨p, .spawn (.call callee args)⟩ scope cx)) s (.ok .empty)
              (v.spawn (.call f values) p)) = [⟨⟨v.scheduler.nextId, .call f values⟩, p⟩] := by
            show (v.scheduler.spawn _ p v.worker).jobs.getLast?.toList.map _ = _
            rw [Scheduler.jobs_spawn empty, List.getLast?_concat]
            rfl
          exact own ▸ .spawned evaluated
      | raised r =>
          obtain ⟨rfl, rfl, rfl⟩ := Resumption.unfolds_done_iff.mp goes
          rw [List.append_nil]
          cases r with
          | thrown value at? => exact .failed evaluated
          | failed err => exact .failed evaluated
      | panicked m =>
          obtain ⟨rfl, rfl, rfl⟩ := Resumption.unfolds_done_iff.mp goes
          rw [List.append_nil]
          exact .panicked evaluated
  | _ =>
      obtain ⟨rfl, rfl, rfl⟩ := Resumption.unfolds_done_iff.mp run
      exact .notCall nofun

/-! ## At every moment -/

/-- Nothing has become of the task but that it was cancelled: its call has not been made, and
nothing has been reported of it. -/
structure NeverStarted (past : Chronicle) (e : Occurrence) (task : TaskId) : Prop where
  status : e.state.scheduler.status? task = some .cancelled
  invoked : task ∉ (Chronicle.invoked (past ++ [e])).map (·.task)
  ended : task ∉ past.endings.map (·.task)
  reported : ∀ f ∈ Chronicle.handedOut (past ++ [e]) ++ e.state.sink.kept.toList ++
    e.state.sink.delivered.toList, f.task ≠ task

/-- The life of all tasks up to a moment, for a host that began in a state. -/
structure Lifecycle (config : Config) (start : State) (past : Chronicle) (e : Occurrence) :
    Prop where
  /-- A new task is pending. -/
  fresh : ∀ task st, (past.last start).scheduler.status? task = none →
    e.state.scheduler.status? task = some st → st = .pending
  /-- A task goes on by at most one step. -/
  moves : ∀ task st, (past.last start).scheduler.status? task = some st →
    ∃ st', e.state.scheduler.status? task = some st' ∧ (st' = st ∨ st.Move st')
  /-- A final status stays for good. -/
  final : ∀ before e' after task st, past ++ [e] = before ++ e' :: after →
    e'.state.scheduler.status? task = some st → st.isFinal = true →
    e.state.scheduler.status? task = some st
  /-- A task is put to work exactly when it starts to run. -/
  started : ∀ task, task ∈ e.invokes.map (·.task) ↔
    (past.last start).scheduler.status? task = some .pending ∧
      e.state.scheduler.status? task = some .running
  /-- The calls that are made are those that were spawned, and each is made at most once. -/
  once : (Chronicle.invoked (past ++ [e])).Sublist ((Chronicle.spawned (past ++ [e])).map (·.job)) ∧
    ((Chronicle.invoked (past ++ [e])).map (·.task)).Nodup
  /-- A task that was asked to stop while it was pending has been cancelled since. -/
  cancelled : ∀ before o s a t after task,
    past ++ [e] = before ++ .answered o s a t :: after → o.Cancels s task →
    s.scheduler.status? task = some .pending → NeverStarted past e task
  /-- To ask any other task to stop changes nothing about its status. -/
  kept : ∀ o s a t task, e = .answered o s a t → o.Cancels s task →
    s.scheduler.status? task ≠ some .pending →
    t.scheduler.status? task = s.scheduler.status? task
  /-- A statement that spawns adds a task once its call has been evaluated, and not otherwise. -/
  spawn : ∀ p expr scope cx s o t,
    e = .answered (.question (.execute ⟨p, .spawn expr⟩ scope cx)) s o t →
    ∃ before meantime, past = before ++
        .asked (.question (.execute ⟨p, .spawn expr⟩ scope cx)) s :: meantime ∧
      SpawnStatement config p scope s expr meantime o t e.spawns

section Shown
variable {acts : List Act}
  (shown : Resumption.Shows (watched config) (session config acts (.initial .deferred kind)) past e)
include shown

/-- A final status stays for good. -/
theorem status?_of_final {before after : Chronicle} {e' : Occurrence} {st : TaskStatus}
    (split : past ++ [e] = before ++ e' :: after)
    (found : e'.state.scheduler.status? task = some st) (final : st.isFinal = true) :
    e.state.scheduler.status? task = some st := by
  obtain ⟨r, known, rfl⟩ := Option.map_eq_some_iff.mp found
  obtain ⟨r', known', -, later⟩ := advanced_of_path (path_of_session rfl shown) split task r known
  simp [Scheduler.status?, known', TaskStatus.eq_of_final later final]

/-- What is put to work runs. -/
theorem status?_of_invokes (worked : task ∈ e.invokes.map (·.task)) :
    (past.last (.initial .deferred kind)).scheduler.status? task = some .pending ∧
      e.state.scheduler.status? task = some .running := by
  have advances := advances_of_path (path_of_session rfl shown)
  obtain ⟨r, known⟩ := Scheduler.mem_ids.mp (advances.started task worked)
  obtain ⟨r', known', goes⟩ := advances.known task r known
  obtain ⟨pending, running⟩ := goes.started.mp worked
  simp [Scheduler.status?, known, known', pending, running]

/-- A task whose status is final is not put to work any more. -/
theorem notMem_invoked_of_final {before after : Chronicle} {e' : Occurrence} {st : TaskStatus}
    (split : past ++ [e] = before ++ e' :: after)
    (found : e'.state.scheduler.status? task = some st) (final : st.isFinal = true) :
    task ∉ (Chronicle.invoked after).map (·.task) := by
  intro worked
  obtain ⟨job, there, rfl⟩ := List.mem_map.mp worked
  obtain ⟨x, hx, invokes⟩ := List.mem_flatMap.mp there
  obtain ⟨first, rest, rfl⟩ := List.mem_iff_append.mp hx
  rw [← List.cons_append, ← List.append_assoc] at split
  have later := shown.earlier split
  have running := (status?_of_invokes later (List.mem_map_of_mem invokes)).2
  have unchanged : (before ++ e' :: first) ++ [x] = before ++ e' :: (first ++ [x]) :=
    List.append_assoc _ _ _
  rw [status?_of_final later unchanged found final] at running
  cases running
  cases final

/-- A task that is asked to stop while it is pending is never started. -/
theorem neverStarted_of_cancels {before after : Chronicle} {o : Occasion} {a : o.Reply}
    (split : past ++ [e] = before ++ .answered o s a t :: after) (cancels : o.Cancels s task)
    (pending : s.scheduler.status? task = some .pending) : NeverStarted past e task := by
  -- it is cancelled at once
  have answered := shown.earlier split
  obtain ⟨first, inner, rfl, run⟩ := answered.unfolds
  obtain ⟨b, u, body, asked⟩ := cancels.body config
  rw [body] at run
  obtain ⟨rfl, -, rfl⟩ := Resumption.unfolds_done_iff.mp run
  have cancelled : t.scheduler.status? task = some .cancelled := by
    rw [Scheduler.status?_of_cancel asked, pending]
    rfl
  -- it has not been put to work until then, and it is not put to work later
  have invoked : task ∉ (Chronicle.invoked (past ++ [e])).map (·.task) := by
    have asking : Resumption.Shows (watched config)
        (session config acts (.initial .deferred kind)) first (.asked o s) :=
      answered.earlier (List.append_assoc _ _ _)
    have unstarted : task ∉ (Chronicle.invoked (first ++ [.asked o s])).map (·.task) :=
      (booked_of_path (path_of_session rfl asking)).notMem_invoked_of_pending pending
    have parts : Chronicle.invoked (past ++ [e]) =
        Chronicle.invoked (first ++ [.asked o s]) ++ Chronicle.invoked after := by
      rw [split]
      simp [Chronicle.invoked, Occurrence.invokes]
    rw [parts, List.map_append, List.mem_append, not_or]
    exact ⟨unstarted, notMem_invoked_of_final shown split cancelled rfl⟩
  have path := path_of_session rfl shown
  have ended : task ∉ past.endings.map (·.task) := fun there =>
    invoked ((booked_of_path path).started.mem_iff.mp (List.mem_append_right _ there))
  refine ⟨status?_of_final shown split cancelled rfl, invoked, ended, fun f told same => ?_⟩
  obtain ⟨x, hx, reports⟩ := (held_of_path path).reports told
  have there := List.mem_map_of_mem (f := Ending.task) (List.mem_filter.mp hx).1
  rw [← reports.task, same] at there
  exact ended there

/-- **The life of a task**, at every moment of every session. -/
theorem lifecycle_of_session : Lifecycle config (.initial .deferred kind) past e := by
  have path := path_of_session rfl shown
  have books := booked_of_path path
  have advances := advances_of_path path
  refine { fresh := fun task st new found => ?_, moves := fun task st found => ?_,
           final := fun before e' after task st split found final => ?_,
           started := fun task => ?_, once := ⟨?_, books.nodup_invoked⟩,
           cancelled := fun before o s a t after task split => neverStarted_of_cancels shown split,
           kept := ?_, spawn := ?_ }
  · obtain ⟨r, known, rfl⟩ := Option.map_eq_some_iff.mp found
    exact advances.fresh task r (Option.map_eq_none_iff.mp new) known
  · obtain ⟨r, known, rfl⟩ := Option.map_eq_some_iff.mp found
    obtain ⟨r', known', goes⟩ := advances.known task r known
    exact ⟨r'.status, by simp [Scheduler.status?, known'], goes.status⟩
  · exact status?_of_final shown split found final
  · constructor
    · exact status?_of_invokes shown
    · rintro ⟨pending, running⟩
      obtain ⟨r, known, pending⟩ := Option.map_eq_some_iff.mp pending
      obtain ⟨r', known', goes⟩ := advances.known task r known
      refine goes.started.mpr ⟨pending, ?_⟩
      simpa [Scheduler.status?, known'] using running
  · have jobs := books.jobs
    rw [← jobs]
    exact books.taken.trans (List.sublist_append_left _ _)
  · rintro o s a t task rfl cancels other
    obtain ⟨before, meantime, -, run⟩ := shown.unfolds
    obtain ⟨b, u, body, asked⟩ := cancels.body config
    rw [body] at run
    obtain ⟨-, -, rfl⟩ := Resumption.unfolds_done_iff.mp run
    rw [Scheduler.status?_of_cancel asked]
    cases status : s.scheduler.status? task with
    | none => rfl
    | some st =>
        have other : st ≠ .pending := fun same => other (same ▸ status)
        rw [Option.map_some, if_neg other]
  · rintro p expr scope cx s o t rfl
    obtain ⟨before, meantime, split, run⟩ := shown.unfolds
    exact ⟨before, meantime, split, spawnStatement_of_unfolds run books.noDesks⟩

end Shown

/-- A task is asked to stop before the queue is drained. Its job is dequeued, but it is never
started. -/
theorem lifecycle_of_session_cancelled :
    let acts : List Act :=
      [.command (.spawn "job" [] [] ⟨1, 1⟩), .command (.cancel ⟨1⟩), .command .runPending]
    ∃ past s t,
      Resumption.Shows (watched .standard)
        (session .standard acts (.initial .deferred .buffer)) past
        (.answered (.command .runPending) s (.ok (.ran 1)) t) ∧
      Lifecycle .standard (.initial .deferred .buffer) past
        (.answered (.command .runPending) s (.ok (.ran 1)) t) ∧
      NeverStarted past (.answered (.command .runPending) s (.ok (.ran 1)) t) ⟨1⟩ := by
  intro acts
  let pending : State :=
    { (State.initial .deferred .buffer).spawn (.perform "job" [] []) ⟨1, 1⟩ with held := [⟨1⟩] }
  let cancelled : State := { pending with scheduler := pending.scheduler.cancel ⟨1⟩ }
  obtain ⟨meantime, t, unfolds⟩ : ∃ h t, Resumption.Unfolds (watched .standard)
      (watched .standard (.command .runPending) cancelled) h (.ok (.ran 1)) t :=
    history_of_ran (n := 1) (show (Resumption.run _ 30 _).bind _ = _ by decide +kernel)
  have shown : Resumption.Shows (watched .standard)
      (session .standard acts (.initial .deferred .buffer)) _
      (.answered (.command .runPending) cancelled (.ok (.ran 1)) t) :=
    .after (.done _ _) (.after (.done _ cancelled) (.answered unfolds))
  refine ⟨_, cancelled, t, shown, lifecycle_of_session shown, ?_⟩
  exact (lifecycle_of_session shown).cancelled [_, _, _] (.command (.cancel ⟨1⟩)) pending _
    cancelled _ ⟨1⟩ rfl ⟨rfl, rfl⟩ rfl

end StatementEngine
