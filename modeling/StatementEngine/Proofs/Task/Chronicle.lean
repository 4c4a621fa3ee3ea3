import StatementEngine.Proofs.Task.Drift
import StatementEngine.Proofs.Task.Watched

/-!
# What a chronicle tells of tasks

**What becomes of tasks can be read off what has happened.** A chronicle tells

* which tasks have been spawned, with which work and where (`Chronicle.spawned`);
* which jobs have been taken from the queue (`Chronicle.dequeued`), and which of them have been put
  to work (`Chronicle.invoked`);
* whose work has ended, and how (`Chronicle.endings`);
* which failures the host has been handed (`Chronicle.handedOut`);
* which tasks are being run: their work has been asked for and is not over. They are stacked, since
  a task that drains the queue runs others in the meantime (`Chronicle.underway`).

None of this looks at the records of the tasks or at the sink.
-/

namespace StatementEngine

variable {config : Config} {s t : State} {start : State} {past : Chronicle} {α : Type}

/-! ## Jobs and endings -/

/-- The jobs in the queue, oldest first. -/
def Scheduler.jobs (s : Scheduler) : List Job := s.backlog.queue.toList

/-- Where nobody has a desk, new jobs go to the end of the queue. -/
theorem Scheduler.jobs_spawn {u : Scheduler} (noDesks : u.backlog.desks = #[]) (work : Work)
    (p : Position) (w : Option WorkerId) :
    (u.spawn work p w).jobs = u.jobs ++ [⟨u.nextId, work⟩] := by
  have queued : (u.backlog.push ⟨u.nextId, work⟩ w).queue
      = u.backlog.queue.push ⟨u.nextId, work⟩ := by
    cases w with
    | none => rfl
    | some w => simp [Backlog.push, noDesks]
  show (u.backlog.push _ w).queue.toList = _
  rw [queued, Queue.toList_push]
  rfl

/-- A task that has been spawned: its job, and where it was spawned. -/
structure Spawning where
  job : Job
  position : Position

/-- A task whose work has ended. -/
structure Ending where
  task : TaskId
  outcome : Outcome Raise Value

/-- What is reported of a task whose work ends like this. -/
def Outcome.failure? : Outcome Raise Value → Option Raise
  | .ok _ => none
  | .raised r => if r.isCancelled then none else some r
  | .panicked m => some (.ofKind (.invalidOperation ("task panicked: " ++ m)))

/-- The status of a task whose work ends like this. -/
def Outcome.finalStatus : Outcome Raise Value → TaskStatus
  | .ok _ => .completed
  | .raised r => .ofRaise r
  | .panicked _ => .failed

/-! ## Single occurrences -/

namespace Occurrence

/-- The task that has been spawned. A command says its number. A statement does not, and its job is
the last one in the queue. -/
def spawns : Occurrence → List Spawning
  | .answered (.command (.spawn name body args p)) _ (.ok (.spawned t)) _ =>
    [⟨⟨t, .perform name body args⟩, p⟩]
  | .answered (.question (.execute ⟨p, .spawn _⟩ _ _)) _ (.ok c) s =>
    if c.isNormal then s.scheduler.jobs.getLast?.toList.map fun job => ⟨job, p⟩ else []
  | _ => []

/-- The job that is taken from the queue right afterwards: a drain takes the first one. -/
def takes : Occurrence → List Job
  | .asked (.question (.drain _)) s => s.scheduler.jobs.take 1
  | _ => []

/-- The task that is put to work, with its work. -/
def invokes : Occurrence → List Job
  | .asked (.question (.work w)) s => s.running.toList.map fun t => ⟨t, w⟩
  | _ => []

/-- The task whose work has ended. It is settled right afterwards. -/
def ends : Occurrence → List Ending
  | .answered (.question (.work _)) s o _ => s.running.toList.map fun t => ⟨t, o⟩
  | _ => []

/-- The failures that are handed out to the host. -/
def handsOut : Occurrence → List Failure
  | .answered (.command .takeFailures) _ (.ok (.failures kept _)) _ => kept
  | _ => []

/-- The tasks being run, innermost first, after the occurrence. -/
def nest : Occurrence → List TaskId → List TaskId
  | .asked (.question (.work _)) s, tasks => s.running.toList ++ tasks
  | .answered (.question (.work _)) s _ _, tasks => tasks.drop s.running.toList.length
  | _, tasks => tasks

/-- Nothing is taken from the queue and nothing is settled afterwards. -/
def AtRest : Occurrence → Prop
  | .asked (.question (.drain _)) _ => False
  | .answered (.question (.work _)) _ _ _ => False
  | _ => True

/-- No task is spawned or put to work, and no failures are handed out. -/
structure Plain (e : Occurrence) : Prop where
  spawns : e.spawns = []
  invokes : e.invokes = []
  handsOut : e.handsOut = []

theorem AtRest.takes {e : Occurrence} (rest : e.AtRest) : e.takes = [] := by
  unfold Occurrence.takes
  split
  · exact rest.elim
  · rfl

theorem AtRest.ends {e : Occurrence} (rest : e.AtRest) : e.ends = [] := by
  unfold Occurrence.ends
  split
  · exact rest.elim
  · rfl

/-- What is asked is plain unless it is the work of a task. -/
theorem plain_asked {q : Request} (idle : ¬ q.IsWork) (s : State) :
    Plain (.asked (.question q) s) := by
  refine ⟨rfl, ?_, rfl⟩
  cases q with
  | work w => exact absurd trivial idle
  | evaluate | call | execute | block | iterate | drain | await => rfl

/-- What is answered is at rest unless it is the work of a task. -/
theorem atRest_answered {q : Request} (idle : ¬ q.IsWork) {s t : State} {a : Answer q} :
    AtRest (.answered (.question q) s a t) := by
  cases q with
  | work w => exact absurd trivial idle
  | evaluate | call | execute | block | iterate | drain | await => trivial

/-- The answer to a question is plain unless the question is a statement that spawns. -/
theorem plain_answered (q : Request) (other : ¬ q.IsSpawn) (s : State)
    (a : Occasion.Reply (.question q)) (t : State) : Plain (.answered (.question q) s a t) := by
  refine ⟨?_, rfl, rfl⟩
  cases q with
  | execute stmt scope cx =>
      obtain ⟨p, form⟩ := stmt
      cases form with
      | spawn e => exact absurd ⟨e, rfl⟩ other
      | _ => rfl
  | evaluate | call | block | iterate | work | drain | await => rfl

/-- A statement that fails is plain. -/
theorem plain_execute {stmt : Stmt} {scope : ScopeId} {cx : Context} {s t : State}
    {o : Outcome EngineError Completion} (failed : ∀ c, o = .ok c → c.isNormal = false) :
    Plain (.answered (.question (.execute stmt scope cx)) s o t) := by
  refine ⟨?_, rfl, rfl⟩
  cases o with
  | ok c =>
      obtain ⟨p, form⟩ := stmt
      cases form with
      | spawn e => simp [spawns, failed c rfl]
      | _ => rfl
  | raised e | panicked m =>
      obtain ⟨p, form⟩ := stmt
      cases form with
      | _ => rfl

end Occurrence

/-! ## Whole chronicles -/

namespace Chronicle

/-- The tasks that have been spawned, in order. -/
def spawned (past : Chronicle) : List Spawning := past.flatMap Occurrence.spawns

/-- The jobs that have been taken from the queue, in order. -/
def dequeued (past : Chronicle) : List Job := past.flatMap Occurrence.takes

/-- The tasks that have been put to work, in order. -/
def invoked (past : Chronicle) : List Job := past.flatMap Occurrence.invokes

/-- The tasks that have been settled, in order. -/
def endings (past : Chronicle) : List Ending := past.flatMap Occurrence.ends

/-- The failures that have been handed out to the host, in order. -/
def handedOut (past : Chronicle) : List Failure := past.flatMap Occurrence.handsOut

/-- The tasks whose work has been asked for and has not ended, innermost first. -/
def unfinished (past : Chronicle) : List TaskId := past.foldl (fun tasks e => e.nest tasks) []

/-- The tasks that are being run when something happens, innermost first. A task whose work ends is
still being run. -/
def underway (past : Chronicle) : Occurrence → List TaskId
  | .asked o s => Occurrence.nest (.asked o s) past.unfinished
  | .answered .. => past.unfinished

/-- The state at the end of a chronicle. -/
def last (start : State) (past : Chronicle) : State :=
  (past.getLast?.map Resumption.Event.state).getD start

/-- Nothing is to be taken from the queue or settled next. -/
def AtRest (past : Chronicle) : Prop := ∀ e ∈ past.getLast?, Occurrence.AtRest e

theorem dequeued_append (first rest : Chronicle) :
    dequeued (first ++ rest) = first.dequeued ++ rest.dequeued :=
  List.flatMap_append

theorem dequeued_cons (e : Occurrence) (rest : Chronicle) :
    dequeued (e :: rest) = e.takes ++ rest.dequeued :=
  List.flatMap_cons

section Concat
variable (past : Chronicle) (e : Occurrence)

@[simp] theorem spawned_concat : spawned (past ++ [e]) = past.spawned ++ e.spawns := by
  simp [spawned]

@[simp] theorem dequeued_concat : dequeued (past ++ [e]) = past.dequeued ++ e.takes := by
  simp [dequeued]

@[simp] theorem invoked_concat : invoked (past ++ [e]) = past.invoked ++ e.invokes := by
  simp [invoked]

@[simp] theorem endings_concat : endings (past ++ [e]) = past.endings ++ e.ends := by
  simp [endings]

@[simp] theorem handedOut_concat : handedOut (past ++ [e]) = past.handedOut ++ e.handsOut := by
  simp [handedOut]

theorem unfinished_concat : unfinished (past ++ [e]) = e.nest past.unfinished := by
  unfold unfinished
  rw [List.foldl_append]
  rfl

theorem last_concat : last start (past ++ [e]) = e.state := by
  unfold last
  rw [List.getLast?_concat]
  rfl

end Concat

theorem atRest_concat {e : Occurrence} : AtRest (past ++ [e]) ↔ e.AtRest := by
  unfold AtRest
  rw [List.getLast?_concat]
  simp

/-- Where no task is put to work, those being run are the unfinished ones. -/
theorem underway_of_invokes {e : Occurrence} (none : e.invokes = []) :
    past.underway e = past.unfinished := by
  match e with
  | .answered o s a t => rfl
  | .asked (.question (.work w)) s =>
      have idle : s.running = Option.none := by
        cases running : s.running with
        | none => rfl
        | some t => simp [Occurrence.invokes, running] at none
      show s.running.toList ++ past.unfinished = past.unfinished
      rw [idle]
      rfl
  | .asked (.command c) s => rfl
  | .asked (.question (.evaluate ..)) s | .asked (.question (.call ..)) s
  | .asked (.question (.execute ..)) s | .asked (.question (.block ..)) s
  | .asked (.question (.iterate _)) s | .asked (.question (.drain _)) s
  | .asked (.question (.await _)) s => rfl

/-- While nothing is settled, the tasks being run stay the same. -/
theorem unfinished_concat_of_ends {e : Occurrence} (none : e.ends = []) :
    unfinished (past ++ [e]) = past.underway e := by
  rw [unfinished_concat]
  match e with
  | .asked o s => rfl
  | .answered (.question (.work w)) s a t =>
      have idle : s.running = Option.none := by
        cases running : s.running with
        | none => rfl
        | some task => simp [Occurrence.ends, running] at none
      show past.unfinished.drop s.running.toList.length = past.unfinished
      rw [idle]
      rfl
  | .answered (.command c) s a t => rfl
  | .answered (.question (.evaluate ..)) s a t | .answered (.question (.call ..)) s a t
  | .answered (.question (.execute ..)) s a t | .answered (.question (.block ..)) s a t
  | .answered (.question (.iterate _)) s a t | .answered (.question (.drain _)) s a t
  | .answered (.question (.await _)) s a t => rfl

/-- A drain takes the first job of the queue. -/
theorem dequeued_concat_drain {s : State} {job : Job} {rest : Scheduler}
    (first : s.scheduler.jobs = job :: rest.jobs) (ran : Nat) :
    dequeued (past ++ [.asked (.question (.drain ran)) s]) = past.dequeued ++ [job] := by
  rw [dequeued_concat]
  show _ ++ s.scheduler.jobs.take 1 = _
  rw [first]
  rfl

end Chronicle

/-- Whatever is asked for in a computation is over at its end. -/
theorem unfinished_append_of_unfolds {r : Watching α} {h : Chronicle} {a : α}
    (run : Resumption.Unfolds (watched config) r h a t) :
    Chronicle.unfinished (past ++ h) = past.unfinished := by
  have level : ∀ tasks, h.foldl (fun tasks e => Occurrence.nest e tasks) tasks = tasks := by
    induction run with
    | done a s => exact fun _ => rfl
    | @ask α o s s' s'' resume b a inner rest _ _ ihq ihr =>
        intro tasks
        rw [List.foldl_cons, List.foldl_append, List.foldl_cons, ihq, ihr]
        -- the answer takes away what the question has put on top
        cases o with
        | command c => rfl
        | question q =>
            cases q with
            | work w => exact List.drop_left
            | evaluate | call | execute | block | iterate | drain | await => rfl
  unfold Chronicle.unfinished
  rw [List.foldl_append, level]

/-- While something is answered, the tasks being run are those of its question. -/
theorem underway_answered {o : Occasion} {a : o.Reply} {inner : Chronicle}
    (run : Resumption.Unfolds (watched config) (watched config o s) inner a t) :
    Chronicle.underway (past ++ .asked o s :: inner) (.answered o s a t)
      = past.underway (.asked o s) := by
  show Chronicle.unfinished _ = _
  rw [List.append_cons, unfinished_append_of_unfolds run, Chronicle.unfinished_concat]
  rfl

theorem suffix_nest_asked (o : Occasion) (s : State) (tasks : List TaskId) :
    tasks <:+ Occurrence.nest (.asked o s) tasks := by
  match o with
  | .question (.work w) => exact List.suffix_append s.running.toList tasks
  | .command c => exact List.suffix_refl tasks
  | .question (.evaluate ..) | .question (.call ..) | .question (.execute ..)
  | .question (.block ..) | .question (.iterate _) | .question (.drain _)
  | .question (.await _) => exact List.suffix_refl tasks

/-- What is unfinished when a computation begins is underway as long as it lasts. -/
theorem suffix_underway_of_shows {r : Watching α} {h : Chronicle} {e : Occurrence}
    (shown : Resumption.Shows (watched config) r h e) :
    past.unfinished <:+ Chronicle.underway (past ++ h) e := by
  induction shown generalizing past with
  | asked o s resume =>
      rw [List.append_nil]
      exact suffix_nest_asked o s past.unfinished
  | @inside α o s resume before e shown ih =>
      have inside : Chronicle.unfinished (past ++ [.asked o s]) <:+
          Chronicle.underway (past ++ [.asked o s] ++ before) e := ih
      rw [Chronicle.unfinished_concat, List.append_assoc, List.singleton_append] at inside
      exact (suffix_nest_asked o s past.unfinished).trans inside
  | @answered α o s s' resume b inner unfolds =>
      rw [underway_answered unfolds]
      exact suffix_nest_asked o s past.unfinished
  | @after α o s s' resume b inner before e unfolds shown ih =>
      -- the question is over, and nothing of it is left
      have whole : Resumption.Unfolds (watched config) (.ask o s .done)
          (.asked o s :: (inner ++ [.answered o s b s'])) b s' := .ask unfolds (.done b s')
      have later :
          Chronicle.unfinished (past ++ .asked o s :: (inner ++ [.answered o s b s'])) <:+
          Chronicle.underway
            (past ++ .asked o s :: (inner ++ [.answered o s b s']) ++ before) e := ih
      rw [unfinished_append_of_unfolds whole] at later
      simpa using later

end StatementEngine
