import StatementEngine.Proofs.Frame
import StatementEngine.Proofs.Invariance
import StatementEngine.Proofs.Run.Asked
import StatementEngine.Proofs.Run.Reached

/-!
# Nobody takes back a request to stop

**A task that has been asked to stop stays asked**, whatever the engine does to the scheduler
(`Scheduler.Stops.step`). So it is asked at every question that a run comes to, tasks and functions
of the host included, and at the end of the run (`staysAsked_everywhere`). Since the task that is
running at the end is the one that was running at the start, a run that starts in a task that is to
stop ends in one (`stopRequested_everywhere`).
-/

namespace StatementEngine

/-- The task has been asked to stop. -/
def Scheduler.Stops (s : Scheduler) (t : TaskId) : Prop :=
  ∃ task, s.task? t = some task ∧ task.stopRequested = true

namespace Scheduler

variable {s s' : Scheduler} {t : TaskId}

theorem task?_update (s : Scheduler) (u t : TaskId) (change : Task → Task) :
    (s.update u change).task? t = if u = t then (s.task? t).map change else s.task? t := by
  unfold update task?
  by_cases absent : t.number = 0
  · simp only [if_pos absent, Option.map_none, ite_self]
  · by_cases unnumbered : u.number = 0
    · have other : u ≠ t := fun same => absent (same ▸ unnumbered)
      rw [if_pos unnumbered, if_neg other]
    · -- both numbers are positive, so the tasks are the same exactly if the records are
      have same : u.number - 1 = t.number - 1 ↔ u = t := by
        cases u
        cases t
        simp only [TaskId.mk.injEq] at absent unnumbered ⊢
        omega
      simp only [if_neg absent, if_neg unnumbered, Array.getElem?_modify, same]

/-- A change that leaves requests as they are does so for all tasks. -/
theorem Stops.update (h : s.Stops t) (u : TaskId) {change : Task → Task}
    (keeps : ∀ task, task.stopRequested = true → (change task).stopRequested = true) :
    (s.update u change).Stops t := by
  obtain ⟨task, htask, asked⟩ := h
  unfold Stops
  rw [task?_update, htask]
  by_cases same : u = t
  · rw [if_pos same]
    exact ⟨change task, rfl, keeps task asked⟩
  · rw [if_neg same]
    exact ⟨task, rfl, asked⟩

theorem Stops.cancel (h : s.Stops t) (u : TaskId) : (s.cancel u).Stops t :=
  h.update u fun _ _ => rfl

theorem Stops.cancelAll (h : s.Stops t) : s.cancelAll.Stops t := by
  unfold Scheduler.cancelAll
  generalize s.table = tasks
  induction tasks generalizing s with
  | nil => exact h
  | cons u rest ih => exact ih (h.cancel u)

/-- Whatever is done to the scheduler, the task stays asked. -/
theorem Stops.step (h : s.Stops t) (step : s.Step s') : s'.Stops t := by
  cases step with
  | spawn work p w =>
      obtain ⟨task, htask, asked⟩ := h
      refine ⟨task, ?_, asked⟩
      unfold task? at htask ⊢
      split
      · next h => rw [if_pos h] at htask; cases htask
      · next h =>
        rw [if_neg h] at htask
        have there := (Array.getElem?_eq_some_iff.mp htask).1
        show (s.records.push _)[_]? = _
        rw [Array.getElem?_push_lt there, ← htask, Array.getElem?_eq_getElem there]
  | cancel u => exact h.cancel u
  | cancelAll => exact h.cancelAll
  | take taken =>
      unfold Scheduler.take? at taken
      obtain ⟨_, -, taken⟩ := Option.map_eq_some_iff.mp taken
      cases taken
      exact h
  | start u =>
      refine h.update u fun task asked => ?_
      -- one that was asked before it could start does not start, and is none the less asked
      rw [Task.start, if_pos asked]
      split
      · exact asked
      · exact asked
  | finish u status => exact h.update u fun _ asked => asked
  | leave u => exact h.update u fun _ asked => asked

end Scheduler

/-! ## Runs -/

/-- The rule that every tree obeys. -/
abbrev Rule.any : Rule := .positions fun _ => True

theorem Request.obeys_any (q : Request) : q.Obeys .any := by
  have tree : ∀ e : Expr, e.Obeys .any := fun e => Expr.obeys_positions fun _ _ => trivial
  have body : ∀ (site : Site) (b : Block), BlockObeys .any site b :=
    fun site b => blockObeys_positions fun _ _ => trivial
  cases q with
  | evaluate e scope => exact tree e
  | execute stmt scope cx => exact Stmt.obeys_positions fun _ _ => trivial
  | block b scope cx => exact body _ b
  | iterate loop => exact ⟨fun e _ => tree e, fun e _ => tree e, body _ loop.body⟩
  | call | work | drain | await => trivial

theorem invariant_stops (task : TaskId) : Invariant .any fun s => s.scheduler.Stops task where
  stable := {
    newChild _ _ h := ⟨h, trivial⟩
    defineFresh _ _ _ _ _ h := h
    overwrite _ _ _ _ _ _ h := h
    register _ _ h := h
    schedule _ _ step h := h.step step
    tell _ _ h := h
    record _ _ h := h
    hold _ _ h := h
    note _ _ h := h }
  declare _ _ _ _ h := h
  capture _ _ _ _ h := h
  callDepth _ _ h := h
  running _ _ h := h
  known _ _ := State.obeys_positions fun _ _ => trivial

variable {config : Config} {s t u : State} {task : TaskId}

/-- A question of a computation is answered in a state in which the task is still asked. -/
theorem stops_of_answer {q : Request} {a : Answer q} (hs : s.scheduler.Stops task)
    (h : Resumption.Evaluates (Interpreter.bodies config) (Interpreter.bodies config q s) a t) :
    t.scheduler.Stops task :=
  (invariance_honored (invariant_stops task) config).answer ⟨q.obeys_any, hs⟩ h

theorem stopRequested_iff : s.stopRequested = true ↔
    ∃ task, s.running = some task ∧ s.scheduler.Stops task := by
  unfold State.stopRequested Scheduler.Stops
  simp [Option.any_eq_true]

/-- A question that is asked in a task that is to stop is answered in one. -/
theorem stopRequested_of_answer {q : Request} {a : Answer q} (hs : s.stopRequested = true)
    (h : Resumption.Evaluates (Interpreter.bodies config) (Interpreter.bodies config q s) a t) :
    t.stopRequested = true := by
  obtain ⟨task, running, asked⟩ := stopRequested_iff.mp hs
  have frame := (frame_honored config).answer trivial h
  exact stopRequested_iff.mpr ⟨task, frame.running.trans running, stops_of_answer asked h⟩

/-! ## Whatever a host can have run -/

/-- The task is asked to stop at every question that the run comes to, those of other tasks and of
functions of the host included, and at its end. -/
structure Exec.StaysAsked (config : Config) (x : Exec ε α) (s : State) (task : TaskId) : Prop where
  reached : ∀ before q u,
    Resumption.Reaches (Interpreter.bodies config) (fun _ => True) (x s) before q u →
    u.scheduler.Stops task
  ended : ∀ o t, Runs config x s o t → t.scheduler.Stops task

theorem staysAsked_everywhere (config : Config) (hs : s.scheduler.Stops task) :
    Exec.Everywhere config fun x _ => x.StaysAsked config s task := by
  have keeps : Exec.Everywhere config fun x _ =>
      Exec.Keeps (invariance .any fun s => s.scheduler.Stops task)
        (fun s => s.scheduler.Stops task) x :=
    Exec.everywhere_keeps (fun _ h => h) (fun _ h => h)
      (fun _ _ _ => invariance_lets (Request.obeys_any _))
      (fun _ _ _ => invariance_lets (Request.obeys_any _))
      (fun _ _ => invariance_lets (Request.obeys_any _)) (fun _ _ => invariance_lets trivial)
      fun _ _ => invariance_lets (Request.obeys_any _)
  have honored := invariance_honored (invariant_stops task) config
  refine keeps.imp fun x _ hx => ⟨fun before q u reached => ?_, fun o t run => ?_⟩
  · exact (reached.asked (fun q s hq _ => (honored q s hq).mono fun _ _ _ => trivial)
      (fun q s b t hq => honored.answer hq) (hx s hs)).2
  · exact (hx.runs honored hs run).1

/-- A run that starts in a task that is to stop ends in one. -/
theorem stopRequested_everywhere (config : Config) (hs : s.stopRequested = true) :
    Exec.Everywhere config fun x _ => ∀ o t, Runs config x s o t → t.stopRequested = true := by
  obtain ⟨task, running, asked⟩ := stopRequested_iff.mp hs
  refine ((staysAsked_everywhere config asked).and (kept_everywhere config s)).imp ?_
  intro _ _ x _ h o t run
  exact stopRequested_iff.mpr ⟨task, (h.2 o t run).2.trans running, h.1.ended o t run⟩

end StatementEngine
