import Mathlib.Data.List.Induction
import StatementEngine.Proofs.Task.Chronicle

/-!
# The way of the tasks

**From one event to the next tasks get on in few ways** (`Follows`). They may be asked to stop at
any time. Apart from that

* a task is spawned when a command or a statement that spawns is done;
* whoever drains the queue takes its first job, and either passes over the task or puts it to work;
* when the work has ended, the task is settled at once, and the drain goes on with the next job;
* a drain ends when the queue is empty;
* the host empties the sink.

A chronicle that goes on like this is a `Path`. That the chronicles of all sessions are paths
(`path_of_session`) is what has to be seen from the bodies of the engine; all that is said about
tasks follows from it.

A path keeps to the brackets of questions and answers: the tasks that are being run are stacked
(`Chronicle.underway`), and the running task is the one on top.
-/

namespace StatementEngine

variable {config : Config} {s t : State} {start : State} {past : Chronicle} {α ε : Type}

/-! ## The turn of a task -/

/-- The state after a failure of a task has been reported. -/
def State.report (s : State) (t : TaskId) (r : Raise) : State :=
  match s.scheduler.task? t with
  | some task => { s with sink := s.sink.report ⟨t, task.position, r⟩ }
  | none => s

/-- The state after a task has been settled and has left the table. -/
def State.settle (s : State) (t : TaskId) (o : Outcome Raise Value) : State :=
  let reported := o.failure?.elim s (s.report t)
  { reported with scheduler := (reported.scheduler.finish t o.finalStatus).leave t }

@[simp] theorem State.report_running (s : State) (t : TaskId) (r : Raise) :
    (s.report t r).running = s.running := by
  unfold report
  split
  · rfl
  · rfl

@[simp] theorem State.report_scheduler (s : State) (t : TaskId) (r : Raise) :
    (s.report t r).scheduler = s.scheduler := by
  unfold report
  split
  · rfl
  · rfl

@[simp] theorem State.report_scopes (s : State) (t : TaskId) (r : Raise) :
    (s.report t r).scopes = s.scopes := by
  unfold report
  split
  · rfl
  · rfl

@[simp] theorem State.report_modules (s : State) (t : TaskId) (r : Raise) :
    (s.report t r).modules = s.modules := by
  unfold report
  split
  · rfl
  · rfl

@[simp] theorem State.settle_running (s : State) (t : TaskId) (o : Outcome Raise Value) :
    (s.settle t o).running = s.running := by
  unfold settle
  cases o.failure? with
  | none => rfl
  | some r => exact s.report_running t r

@[simp] theorem State.settle_scopes (s : State) (t : TaskId) (o : Outcome Raise Value) :
    (s.settle t o).scopes = s.scopes := by
  unfold settle
  cases o.failure? with
  | none => rfl
  | some r => exact s.report_scopes t r

@[simp] theorem State.settle_modules (s : State) (t : TaskId) (o : Outcome Raise Value) :
    (s.settle t o).modules = s.modules := by
  unfold settle
  cases o.failure? with
  | none => rfl
  | some r => exact s.report_modules t r

@[simp] theorem State.settle_scheduler (s : State) (t : TaskId) (o : Outcome Raise Value) :
    (s.settle t o).scheduler = (s.scheduler.finish t o.finalStatus).leave t := by
  unfold settle
  cases o.failure? with
  | none => rfl
  | some r =>
      show ((s.report t r).scheduler.finish t o.finalStatus).leave t = _
      rw [report_scheduler]

theorem Exec.settleTask_eq (t : TaskId) (o : Outcome Raise Value) (s : State) :
    (settleTask t o >>= fun _ => modify fun s => { s with scheduler := s.scheduler.leave t } :
      Exec ε Unit) s = .done (.ok ()) (s.settle t o) := by
  cases o with
  | ok v => rfl
  | panicked m => rfl
  | raised r =>
      unfold settleTask State.settle Outcome.failure?
      cases reported : r.isCancelled with
      | true =>
          simp only [reported]
          rfl
      | false =>
          simp only [reported]
          rfl

/-- The first job of the queue is taken. Its task is passed over, or its work is done and it is
settled. In any case the draining goes on. -/
theorem Exec.drainBody_eq (ran : Nat) (s : State) : drainBody ran s =
    match s.scheduler.take? none with
    | none => .done ran s
    | some (job, rest) =>
      match rest.start job.task with
      | (false, scheduler) =>
        .ask (.drain (ran + 1)) { s with scheduler := scheduler.leave job.task } .done
      | (true, scheduler) =>
        .ask (.work job.work) { s with scheduler, running := some job.task } fun o t =>
          .ask (.drain (ran + 1)) (State.settle { t with running := s.running } job.task o)
            .done := by
  unfold drainBody
  cases s.scheduler.take? none with
  | none => rfl
  | some found =>
      obtain ⟨job, rest⟩ := found
      have settled := settleTask_eq (ε := Empty) job.task
      simp only [bind_apply] at settled
      unfold runJob
      cases started : rest.start job.task with
      | mk yes scheduler =>
          cases yes with
          | false => simp [bind_apply, modifyGet, started, modify]
          | true =>
              simp [bind_apply, modifyGet, started, settle, asTask, doWork, thenAlways, settled]

/-! ## Paths -/

/-- What can happen after something has happened, beginning in a state. -/
inductive Follows (start : State) (past : Chronicle) : Occurrence → Prop
  /-- In the meantime tasks have drifted. -/
  | drifts {e : Occurrence} (rest : past.AtRest) (drift : (past.last start).Drifts e.state)
      (plain : e.Plain) : Follows start past e
  /-- A task has been spawned. -/
  | spawned {o : Occasion} {s : State} {a : o.Reply} {u t : State} {work : Work} {p : Position}
      (rest : past.AtRest) (drift : (past.last start).Drifts u)
      (state : (u.spawn work p).SameTasks t) (kept : Occurrence.handsOut (.answered o s a t) = [])
      (spawns : u.scheduler.backlog.desks = #[] →
        Occurrence.spawns (.answered o s a t) = [⟨⟨u.scheduler.nextId, work⟩, p⟩]) :
      Follows start past (.answered o s a t)
  /-- The host empties the sink. -/
  | emptied {s : State} (last : past.getLast? = some (.asked (.command .takeFailures) s)) :
      Follows start past (.answered (.command .takeFailures) s
        (.ok (.failures (Exec.ordered s s.sink.kept) (Exec.ordered s s.sink.delivered)))
        { s with sink := s.sink.take.2 })
  /-- The drain finds no job. -/
  | drained {ran : Nat} {s : State}
      (last : past.getLast? = some (.asked (.question (.drain ran)) s))
      (empty : s.scheduler.take? none = none) :
      Follows start past (.answered (.question (.drain ran)) s ran s)
  /-- The drain passes over a task. -/
  | skipped {ran : Nat} {s : State} {job : Job} {rest scheduler : Scheduler}
      (last : past.getLast? = some (.asked (.question (.drain ran)) s))
      (taken : s.scheduler.take? none = some (job, rest))
      (refused : rest.start job.task = (false, scheduler)) :
      Follows start past (.asked (.question (.drain (ran + 1)))
        { s with scheduler := scheduler.leave job.task })
  /-- The drain puts a task to work. -/
  | invoked {ran : Nat} {s : State} {job : Job} {rest scheduler : Scheduler}
      (last : past.getLast? = some (.asked (.question (.drain ran)) s))
      (taken : s.scheduler.take? none = some (job, rest))
      (started : rest.start job.task = (true, scheduler)) :
      Follows start past (.asked (.question (.work job.work))
        { s with scheduler, running := some job.task })
  /-- The innermost task is settled and the drain goes on. -/
  | settled {w : Work} {s u : State} {o : Outcome Raise Value} {task : TaskId}
      {before : Option TaskId} {ran : Nat}
      (last : past.getLast? = some (.answered (.question (.work w)) s o u))
      (running : s.running = some task)
      (innermost : (Chronicle.unfinished past.dropLast).head? = some task) :
      Follows start past (.asked (.question (.drain (ran + 1)))
        (State.settle { u with running := before } task o))

/-- Everything that has happened has happened in one of these ways, and the running task has always
been the innermost one. -/
inductive Path (start : State) : Chronicle → Prop
  | nil : Path start []
  | concat {past : Chronicle} {e : Occurrence} (path : Path start past)
      (follows : Follows start past e) (running : e.state.running = (past.underway e).head?) :
      Path start (past ++ [e])

theorem path_concat_iff {e : Occurrence} : Path start (past ++ [e]) ↔
    Path start past ∧ Follows start past e ∧ e.state.running = (past.underway e).head? := by
  constructor
  · intro path
    generalize whole : past ++ [e] = h at path
    cases path with
    | nil => simp at whole
    | concat path follows running =>
        obtain ⟨rfl, same⟩ := List.append_inj' whole rfl
        cases same
        exact ⟨path, follows, running⟩
  · intro ⟨path, follows, running⟩
    exact .concat path follows running

/-- What holds of an occurrence if it holds of the one before holds of all occurrences. -/
theorem Path.induction {holds : Chronicle → Occurrence → Prop} {e : Occurrence}
    (path : Path start (past ++ [e]))
    (step : ∀ past e, Path start past → Follows start past e →
      (∀ before e', past = before ++ [e'] → holds before e') → holds past e) : holds past e := by
  generalize whole : past ++ [e] = h at path
  induction path generalizing past e with
  | nil => simp at whole
  | concat path follows _ ih =>
      obtain ⟨rfl, same⟩ := List.append_inj' whole rfl
      cases same
      exact step _ _ path follows fun before e' split => ih split.symm

/-- What has happened first was a path already. -/
theorem Path.earlier {first rest : Chronicle} (path : Path start (first ++ rest)) :
    Path start first := by
  induction rest using List.reverseRecOn with
  | nil =>
      rw [List.append_nil] at path
      exact path
  | append_singleton rest e ih =>
      rw [← List.append_assoc] at path
      exact ih (path_concat_iff.mp path).1

/-! ## Sessions take paths -/

theorem State.SameTasks.drifts (h : s.SameTasks t) : s.Drifts t where
  scheduler := ⟨[], h.scheduler⟩
  sink := h.sink
  running := h.running

/-- What has happened is a path, and since then tasks have drifted to the state. -/
structure Arrived (start : State) (past : Chronicle) (s : State) : Prop where
  path : Path start past
  rest : past.AtRest
  drift : (past.last start).Drifts s

theorem Arrived.drifted (h : Arrived start past s) (drift : s.Drifts t) : Arrived start past t :=
  { h with drift := h.drift.trans drift }

theorem arrived_concat {e : Occurrence} (path : Path start (past ++ [e])) (rest : e.AtRest) :
    Arrived start (past ++ [e]) e.state where
  path := path
  rest := Chronicle.atRest_concat.mpr rest
  drift := by
    rw [Chronicle.last_concat]
    exact .refl _

/-- What happens to each occasion of a run, as far as tasks are concerned. -/
abbrev Goes (start : State) (past : Chronicle) (e : Occurrence) : Prop := Path start (past ++ [e])

section Sessions
variable (idle : start.running = none)
include idle

theorem Path.running_of_rest (path : Path start past) (rest : past.AtRest) :
    (past.last start).running = past.unfinished.head? := by
  cases path with
  | nil => exact idle
  | @concat past e path follows running =>
      rw [Chronicle.last_concat, running,
        Chronicle.unfinished_concat_of_ends (Chronicle.atRest_concat.mp rest).ends]

/-- Something that is not about the queue happens. -/
theorem Arrived.concat {e : Occurrence} (h : Arrived start past e.state) (plain : e.Plain) :
    Goes start past e := by
  refine .concat h.path (.drifts h.rest h.drift plain) ?_
  rw [Chronicle.underway_of_invokes plain.invokes, ← h.path.running_of_rest idle h.rest]
  exact h.drift.running

/-- A task is spawned. -/
theorem Arrived.concat_spawned {o : Occasion} {a : o.Reply} {u : State} {work : Work} {p : Position}
    (h : Arrived start past u) (state : (u.spawn work p).SameTasks t)
    (kept : Occurrence.handsOut (.answered o s a t) = [])
    (spawns : u.scheduler.backlog.desks = #[] →
      Occurrence.spawns (.answered o s a t) = [⟨⟨u.scheduler.nextId, work⟩, p⟩]) :
    Goes start past (.answered o s a t) := by
  refine .concat h.path (.spawned h.rest h.drift state kept spawns) ?_
  show t.running = past.unfinished.head?
  rw [← h.path.running_of_rest idle h.rest, state.running]
  exact h.drift.running

/-- A computation in which tasks only drift until its end goes on with a path. -/
theorem fits_watch {ends : State → α → State → Prop} {r : Asking α} (h : Arrived start past s)
    (hr : Proceeds ends s r) :
    Resumption.Fits (watched config) (Goes start) (watch r) past
      fun past a t => ∃ u, Arrived start past u ∧ ends u a t := by
  induction r generalizing past s with
  | done a t =>
      obtain ⟨u, drift, ended⟩ := hr
      exact ⟨u, h.drifted drift, ended⟩
  | ask q t resume ih =>
      have here : Arrived start past t := h.drifted hr.1
      refine ⟨here.concat idle (Occurrence.plain_asked hr.2.1 t), fun inner b u _ path => ?_⟩
      exact ih b u (arrived_concat path (Occurrence.atRest_answered hr.2.1)) (hr.2.2 b u)

/-- So does an occasion that is seen to by such a computation. -/
theorem fits_calm {o : Occasion} {r : Asking o.Reply} (path : Goes start past (.asked o s))
    (rest : Occurrence.AtRest (.asked o s)) (hr : Proceeds Calmly s r)
    (plain : ∀ a t, Occurrence.Plain (.answered o s a t)) :
    Resumption.Fits (watched config) (Goes start) (watch r) (past ++ [.asked o s])
      fun past a t => Goes start past (.answered o s a t) := by
  refine (fits_watch idle (arrived_concat path rest) hr).mono fun _ a t h => ?_
  obtain ⟨u, arrived, rfl⟩ := h
  exact arrived.concat idle (plain a t)

/-- The actions of a host function go on with a path if its commands do. -/
theorem fits_performWatched {name : String} {args : List Value} {body : List TaskAction}
    (h : Arrived start past s) :
    Resumption.Fits (watched config) (Goes start) (performWatched name args body s) past
      fun past _ t => Arrived start past t := by
  induction body generalizing past s with
  | nil => exact h
  | cons action rest ih =>
      cases action with
      | command c =>
          refine ⟨h.concat idle (e := .asked (.command c) s) ⟨rfl, rfl, rfl⟩,
            fun inner o t _ path => ?_⟩
          have there := arrived_concat path trivial
          cases o with
          | ok reply => exact ih (there.drifted ⟨⟨[], rfl⟩, rfl, rfl⟩)
          | raised e | panicked m => exact there
      | arguments => exact ih (h.drifted ⟨⟨[], rfl⟩, rfl, rfl⟩)
      | finish | throw | fail | panic => exact h

/-- A drain that goes on is over when what it goes on with is over. -/
theorem fits_goOn {ran next : Nat} (path : Goes start past (.asked (.question (.drain next)) t)) :
    Resumption.Fits (watched config) (Goes start) (watch (.ask (.drain next) t .done)) past
      fun past n u => Goes start past (.answered (.question (.drain ran)) s n u) :=
  ⟨path, fun _ _ _ _ answered =>
    (arrived_concat answered trivial).concat idle (e := .answered (.question (.drain ran)) s _ _)
      ⟨rfl, rfl, rfl⟩⟩

/-- The queue is drained one job after the other. -/
theorem fits_drainBody {ran : Nat} (path : Goes start past (.asked (.question (.drain ran)) s)) :
    Resumption.Fits (watched config) (Goes start) (watch (Exec.drainBody ran s))
      (past ++ [.asked (.question (.drain ran)) s])
      fun past n t => Goes start past (.answered (.question (.drain ran)) s n t) := by
  let asked : Occurrence := .asked (.question (.drain ran)) s
  have last : (past ++ [asked]).getLast? = some asked := List.getLast?_concat
  have running : s.running = (Chronicle.unfinished (past ++ [asked])).head? := by
    rw [Chronicle.unfinished_concat]
    exact (path_concat_iff.mp path).2.2
  rw [Exec.drainBody_eq]
  cases taken : s.scheduler.take? none with
  | none => exact .concat path (.drained last taken) running
  | some found =>
      obtain ⟨job, rest⟩ := found
      dsimp only
      cases started : rest.start job.task with
      | mk yes scheduler =>
          cases yes with
          | false =>
              exact fits_goOn idle (.concat path (.skipped last taken started) running)
          | true =>
              refine ⟨.concat path (.invoked last taken started) rfl,
                fun inner o u run worked => ?_⟩
              refine fits_goOn idle (.concat worked (.settled List.getLast?_concat rfl ?_) ?_)
              · rw [List.dropLast_concat, List.append_cons, unfinished_append_of_unfolds run,
                  Chronicle.unfinished_concat]
                rfl
              -- when the work is over, the tasks being run are those of before
              have whole : Resumption.Unfolds (watched config)
                  (.ask (.question (.work job.work)) { s with scheduler, running := some job.task }
                    .done) _ o u := .ask run (.done o u)
              show (State.settle _ _ _).running = (Chronicle.unfinished _).head?
              rw [State.settle_running, List.append_assoc, List.cons_append,
                unfinished_append_of_unfolds whole]
              exact running

/-- A statement may spawn a task at its end. -/
theorem fits_executeBody {stmt : Stmt} {scope : ScopeId} {cx : Context}
    (path : Goes start past (.asked (.question (.execute stmt scope cx)) s)) :
    Resumption.Fits (watched config) (Goes start) (watch (Exec.executeBody stmt scope cx s))
      (past ++ [.asked (.question (.execute stmt scope cx)) s])
      fun past o t => Goes start past (.answered (.question (.execute stmt scope cx)) s o t) := by
  by_cases spawning : Request.IsSpawn (.execute stmt scope cx)
  · obtain ⟨p, form⟩ := stmt
    obtain ⟨e, rfl⟩ := spawning
    refine (fits_watch idle (arrived_concat path trivial)
      (Exec.proceeds_runSpawn p e scope s)).mono fun past o t h => ?_
    obtain ⟨u, arrived, ⟨rfl, work, rfl⟩ | ⟨rfl, failed⟩⟩ := h
    · have spawned : (u.spawn work p).SameTasks (u.spawn work p) := ⟨rfl, rfl, rfl⟩
      refine arrived.concat_spawned idle spawned rfl fun noDesks => ?_
      show ((u.scheduler.spawn work p u.worker).jobs.getLast?.toList.map _) = _
      rw [Scheduler.jobs_spawn noDesks, List.getLast?_concat]
      rfl
    · exact arrived.concat idle (Occurrence.plain_execute failed)
  · have other : ∀ e, stmt.form ≠ .spawn e := fun e same => spawning ⟨e, same⟩
    exact fits_calm idle path trivial
      (Exec.compositional_calm.executeBody stmt scope cx (fun e same => absurd same (other e)) s)
      (Occurrence.plain_answered _ spawning s)

/-- A command may spawn a task or empty the sink. -/
theorem fits_runCommand {c : TaskCommand} (path : Goes start past (.asked (.command c) s)) :
    Resumption.Fits (watched config) (Goes start) (watch (Exec.runCommand c s))
      (past ++ [.asked (.command c) s])
      fun past o t => Goes start past (.answered (.command c) s o t) := by
  have other (spawns : ∀ name body args p, c ≠ .spawn name body args p)
      (takes : c ≠ .takeFailures) :
      Resumption.Fits (watched config) (Goes start) (watch (Exec.runCommand c s))
        (past ++ [.asked (.command c) s])
        fun past o t => Goes start past (.answered (.command c) s o t) := by
    refine fits_calm idle path trivial
      (Exec.compositional_calm.runCommand .failed Exec.calm_waitFor spawns takes s) fun o t => ?_
    cases c with
    | spawn name body args p => exact absurd rfl (spawns name body args p)
    | takeFailures => exact absurd rfl takes
    | _ => exact ⟨rfl, rfl, rfl⟩
  cases c with
  | spawn name body args p =>
      exact (arrived_concat path trivial).concat_spawned idle ⟨rfl, rfl, rfl⟩ rfl fun _ => rfl
  | takeFailures =>
      refine .concat path (.emptied List.getLast?_concat) ?_
      show s.running = (Chronicle.unfinished _).head?
      rw [Chronicle.unfinished_concat]
      exact (path_concat_iff.mp path).2.2
  | _ => exact other (fun _ _ _ _ => nofun) nofun

/-- Whatever a host is asked to do, the chronicle stays a path. -/
theorem fits_watched (past : Chronicle) (o : Occasion) (s : State)
    (path : Goes start past (.asked o s)) :
    Resumption.Fits (watched config) (Goes start) (watched config o s) (past ++ [.asked o s])
      fun past a t => Goes start past (.answered o s a t) := by
  have calm := Exec.compositional_calm
  have plain (q : Request) (other : ¬ q.IsSpawn) := Occurrence.plain_answered q other s
  cases o with
  | command c => exact fits_runCommand idle path
  | question q =>
      cases q with
      | evaluate e scope =>
          exact fits_calm idle path trivial (calm.evaluateBody e scope s) (plain _ id)
      | call f args =>
          exact fits_calm idle path trivial (calm.callBody config f args s) (plain _ id)
      | execute stmt scope cx => exact fits_executeBody idle path
      | block body scope cx =>
          exact fits_calm idle path trivial (calm.blockBody body scope cx s) (plain _ id)
      | iterate loop =>
          exact fits_calm idle path trivial (calm.iterateBody loop s) (plain _ id)
      | work w =>
          cases w with
          | call f args =>
              exact fits_calm idle path trivial (calm.call f args s) (plain _ id)
          | perform name body args =>
              exact (fits_performWatched idle (arrived_concat path trivial)).mono
                fun _ a t h => h.concat idle (plain (.work (.perform name body args)) id a t)
      | drain ran => exact fits_drainBody idle path
      | await what =>
          exact fits_calm idle path trivial (r := .done () s) (proceeds_done (.refl s))
            (plain _ id)

/-- Everything that a host can do goes on with a path. -/
theorem fits_perform (act : Act) (h : Arrived start past s) :
    Resumption.Fits (watched config) (Goes start) (act.perform config s) past
      fun past _ t => Arrived start past t := by
  have calm := Exec.compositional_calm
  have ended : ∀ {α : Type} {r : Asking α}, Proceeds Calmly s r →
      Resumption.Fits (watched config) (Goes start) (Act.perform.ended r) past
        fun past _ t => Arrived start past t := by
    refine fun hr => Resumption.fits_bind ((fits_watch idle h hr).mono fun past a t there => ?_)
    obtain ⟨_, arrived, rfl⟩ := there
    exact arrived
  cases act with
  | command c =>
      exact ⟨h.concat idle (e := .asked (.command c) s) ⟨rfl, rfl, rfl⟩,
        fun _ _ _ _ path => arrived_concat path trivial⟩
  | script stmts scope => exact ended (calm.runScript config stmts scope s)
  | body stmts scope => exact ended (calm.callBlock config stmts scope s)
  | block stmts scope cx => exact ended (calm.runBlock stmts scope cx s)
  | statement stmt scope cx => exact ended (calm.execute stmt scope cx s)
  | evaluate e scope => exact ended (calm.evaluate e scope s)
  | call f args => exact ended (calm.call f args s)
  | arrange change apart => exact h.drifted (apart s).drifts

theorem fits_session (acts : List Act) (h : Arrived start past s) :
    Resumption.Fits (watched config) (Goes start) (session config acts s) past
      fun past _ t => Arrived start past t := by
  induction acts generalizing past s with
  | nil => exact h
  | cons act rest ih =>
      exact Resumption.fits_bind ((fits_perform idle act h).mono fun _ _ _ there => ih there)

/-- **The chronicle of a session is a path.** -/
theorem path_of_session {acts : List Act} {e : Occurrence}
    (shown : Resumption.Shows (watched config) (session config acts start) past e) :
    Path start (past ++ [e]) := by
  have start_ : Arrived start [] start := ⟨.nil, fun _ h => by simp at h, .refl start⟩
  exact Resumption.fits_sound (fits_watched idle) shown (fits_session idle acts start_)

end Sessions

end StatementEngine
