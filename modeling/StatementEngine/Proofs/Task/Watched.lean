import StatementEngine.Engine.Runs
import StatementEngine.Proofs.Run.History

/-!
# A host that is watched at work

**Whatever a host does is a succession of occasions**: the engine is asked one of its questions, or
the scheduler is given a command. The commands that a task of the host gives while it runs are
occasions as well, so that the history of a run shows what becomes of the tasks at each of them.

* `watched` answers all occasions. It does what the engine does (`evaluates_watch_iff`), and only
  the commands of tasks, which the engine carries out in one go, are told apart.
* `session` is what a host does from some time on: commands, scripts, functions and expressions, one
  act after the other, in any order. Between them it may do with its scopes and modules what it
  likes.
-/

namespace StatementEngine

/-- Something to be done, by the engine or by its scheduler. -/
inductive Occasion where
  | question (q : Request)
  | command (c : TaskCommand)

/-- How it ends. -/
abbrev Occasion.Reply : Occasion → Type
  | .question q => Answer q
  | .command _ => Outcome Raise TaskReply

/-- A computation in which every command is told apart. -/
abbrev Watching (α : Type) : Type := Resumption Occasion.Reply State α

/-- Something that happens while a host is at work. -/
abbrev Occurrence : Type := Resumption.Event Occasion.Reply State

/-- What has happened so far, from the first on. -/
abbrev Chronicle : Type := List Occurrence

variable {α β ε : Type}

/-- The questions of a computation as occasions. -/
def watch : Asking α → Watching α
  | .done a s => .done a s
  | .ask q s resume => .ask (.question q) s fun a s => watch (resume a s)

/-- The computation with its commands carried out in one go. -/
def unwatch : Watching α → Asking α
  | .done a s => .done a s
  | .ask (.question q) s resume => .ask q s fun a s => unwatch (resume a s)
  | .ask (.command c) s resume =>
    (Exec.runCommand c s : Asking (Outcome Raise TaskReply)).bind fun o s => unwatch (resume o s)

/-- Performs the actions of a host function; each command is an occasion of its own. -/
def performWatched (name : String) (args : List Value) :
    List TaskAction → State → Watching (Outcome Raise Value)
  | [], s => .done (.ok .nil) s
  | .command c :: rest, s => .ask (.command c) s fun o s =>
    match o with
    | .ok reply => performWatched name args rest { s with log := s.log.push (name, reply) }
    | .raised e => .done (.raised e) s
    | .panicked m => .done (.panicked m) s
  | .arguments :: rest, s =>
    performWatched name args rest { s with log := s.log.push (name, .arguments args) }
  | .finish v :: _, s => .done (.ok v) s
  | .throw v p :: _, s => .done (.raised (.thrown v p)) s
  | .fail kind :: _, s => .done (.raised (.ofKind kind)) s
  | .panic payload :: _, s => .done (.panicked payload.message) s

/-- The answers to all occasions. -/
def watched (config : Config) : Bodies Occasion.Reply State
  | .question (.work (.perform name body args)) => performWatched name args body
  | .question q => fun s => watch (Interpreter.bodies config q s)
  | .command c => fun s => watch (Exec.runCommand c s)

/-! ## Watching changes nothing -/

@[simp] theorem watch_done (a : α) (s : State) : watch (.done a s : Asking α) = .done a s := rfl

@[simp] theorem watch_ask (q : Request) (s : State) (resume : Answer q → State → Asking α) :
    watch (.ask q s resume) = .ask (.question q) s fun a s => watch (resume a s) := rfl

theorem watch_bind (r : Asking α) (next : α → State → Asking β) :
    watch (r.bind next) = (watch r).bind fun a s => watch (next a s) := by
  induction r with
  | done a s => rfl
  | ask q s resume ih => simp [ih]

@[simp] theorem unwatch_watch (r : Asking α) : unwatch (watch r) = r := by
  induction r with
  | done a s => rfl
  | ask q s resume ih => simp [unwatch, ih]

theorem unwatch_performWatched (name : String) (args : List Value) (body : List TaskAction)
    (s : State) : unwatch (performWatched name args body s) = Exec.perform name args body s := by
  induction body generalizing s with
  | nil => rfl
  | cons action rest ih =>
      cases action with
      | command c =>
          show (Exec.runCommand c s).bind _ = (Exec.runCommand c s).bind _
          congr 1
          funext o s
          cases o with
          | ok reply => exact ih _
          | raised e | panicked m => rfl
      | arguments => exact ih _
      | finish | throw | fail | panic => rfl

theorem unwatch_watched (config : Config) (q : Request) (s : State) :
    unwatch (watched config (.question q) s) = Interpreter.bodies config q s := by
  cases q with
  | work w =>
      cases w with
      | call f args => rfl
      | perform name body args => exact unwatch_performWatched name args body s
  | evaluate | call | execute | block | iterate | drain | await => exact unwatch_watch _

variable {config : Config} {s t : State}

/-- What a watched computation computes, the engine computes. -/
theorem evaluates_unwatch {w : Watching α} {a : α}
    (run : Resumption.Evaluates (watched config) w a t) :
    Resumption.Evaluates (Interpreter.bodies config) (unwatch w) a t := by
  induction run with
  | done a s => exact .done a s
  | @ask α o s s' s'' resume b a _ _ ihq ihr =>
      cases o with
      | question q =>
          rw [unwatch_watched] at ihq
          exact .ask ihq ihr
      | command c =>
          have answered := ihq
          rw [watched, unwatch_watch] at answered
          exact Resumption.evaluates_bind_iff.mpr ⟨b, s', answered, ihr⟩

/-- The commands of a task can be told apart. -/
theorem evaluates_performWatched {name : String} {args : List Value} {body : List TaskAction}
    {o : Outcome Raise Value}
    (run : Resumption.Evaluates (watched config) (watch (Exec.perform name args body s)) o t) :
    Resumption.Evaluates (watched config) (performWatched name args body s) o t := by
  induction body generalizing s with
  | nil => exact run
  | cons action rest ih =>
      cases action with
      | command c =>
          have parts : Resumption.Evaluates (watched config)
              (watch ((Exec.runCommand c >>= fun reply => Exec.note name reply >>= fun _ =>
                Exec.perform name args rest) s)) o t := run
          rw [Exec.bind_apply, watch_bind, Resumption.evaluates_bind_iff] at parts
          obtain ⟨p, s', answered, resumed⟩ := parts
          refine .ask answered ?_
          cases p with
          | ok reply => exact ih resumed
          | raised e | panicked m => exact resumed
      | arguments => exact ih run
      | finish | throw | fail | panic => exact run

/-- **A watched computation computes what it computes unwatched.** -/
theorem evaluates_watch_iff {r : Asking α} {a : α} :
    Resumption.Evaluates (watched config) (watch r) a t
      ↔ Resumption.Evaluates (Interpreter.bodies config) r a t := by
  constructor
  · intro run
    have plain := evaluates_unwatch run
    rwa [unwatch_watch] at plain
  · intro run
    induction run with
    | done a s => exact .done a s
    | @ask α q s s' s'' resume b a _ _ ihq ihr =>
        refine .ask ?_ ihr
        cases q with
        | work w =>
            cases w with
            | call f args => exact ihq
            | perform name body args => exact evaluates_performWatched ihq
        | evaluate | call | execute | block | iterate | drain | await => exact ihq

/-- Every run of the interpreter has a history in which commands are told apart. -/
theorem history_of_run {ε : Type} {x : Exec ε α} {o : Outcome ε α} {fuel : Nat}
    (run : Resumption.run (Interpreter.bodies config) fuel (x s) = some (o, t)) :
    ∃ h, Resumption.Unfolds (watched config) (watch (x s)) h o t :=
  (evaluates_watch_iff.mpr (runs_iff_run.mpr ⟨fuel, run⟩)).unfolds

/-- The number of jobs that have been run, if that is the outcome. -/
def Outcome.ran? : Outcome Raise TaskReply → Option Nat
  | .ok (.ran n) => some n
  | _ => none

/-- A host that is told how many jobs have been run has seen them run. -/
theorem history_of_ran {fuel n : Nat}
    (ran : (Resumption.run (Interpreter.bodies config) fuel (Exec.runCommand .runPending s)).bind
      (·.1.ran?) = some n) :
    ∃ h t, Resumption.Unfolds (watched config) (watched config (.command .runPending) s) h
      (.ok (.ran n)) t := by
  obtain ⟨⟨o, t⟩, run, reply⟩ := Option.bind_eq_some_iff.mp ran
  obtain rfl : o = .ok (.ran n) := by
    unfold Outcome.ran? at reply
    split at reply
    · next same =>
      cases reply
      exact same
    · cases reply
  obtain ⟨h, unfolds⟩ := history_of_run run
  exact ⟨h, t, unfolds⟩

/-! ## Sessions -/

/-- The scheduler, the sink and the running task are the same. -/
structure State.SameTasks (s t : State) : Prop where
  scheduler : t.scheduler = s.scheduler
  sink : t.sink = s.sink
  running : t.running = s.running

/-- Something that a host does. -/
inductive Act where
  /-- Gives a command. -/
  | command (c : TaskCommand)
  /-- Runs a script. -/
  | script (stmts : Block) (scope : ScopeId)
  /-- Runs the body of a function. -/
  | body (stmts : Block) (scope : ScopeId)
  /-- Runs a block, and takes over its signals. -/
  | block (stmts : Block) (scope : ScopeId) (cx : Context)
  | statement (stmt : Stmt) (scope : ScopeId) (cx : Context)
  | evaluate (e : Expr) (scope : ScopeId)
  | call (f : FunctionRef) (args : List Value)
  /-- Changes something that is no business of tasks. -/
  | arrange (change : State → State) (apart : ∀ s : State, s.SameTasks (change s))

/-- Does something and forgets how it ended. -/
def Act.perform (config : Config) : Act → State → Watching Unit
  | .command c, s => .ask (.command c) s fun _ s => .done () s
  | .script stmts scope, s => ended (Exec.runScript config stmts scope s)
  | .body stmts scope, s => ended (Exec.callBlock config stmts scope s)
  | .block stmts scope cx, s => ended (Exec.runBlock stmts scope cx s)
  | .statement stmt scope cx, s => ended (Exec.execute stmt scope cx s)
  | .evaluate e scope, s => ended (Exec.evaluate e scope s)
  | .call f args, s => ended (Exec.call f args s)
  | .arrange change _, s => .done () (change s)
where
  ended {α : Type} (r : Asking α) : Watching Unit := (watch r).bind fun _ s => .done () s

/-- Does one thing after the other. -/
def session (config : Config) : List Act → State → Watching Unit
  | [], s => .done () s
  | act :: rest, s => (act.perform config s).bind fun _ s => session config rest s

end StatementEngine
