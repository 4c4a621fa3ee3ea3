import StatementEngine.Proofs.Run.Contained
import StatementEngine.Proofs.Task.Lifecycle

/-!
# Laws of sessions

**A law says what holds of the state after what has happened** (`Law`). To see that it holds at all
times, it is enough to look at the few ways in which things change:

* something has happened in scopes that somebody still has (`State.OnlyIn`);
* a module statement has succeeded and registers its scope (`Occurrence.registers`);
* an occasion has asked a task to stop (`Occasion.Cancels`), which is how tasks are asked to stop;
* the queue and the sink get on, which is no business of scopes, modules and requests.

A law also says which scopes somebody still has. Whoever asks something has its scope, and whoever
makes a scope has it until he is done.

That a law holds in all sessions is `Law.of_session`.
-/

namespace StatementEngine

variable {config : Config} {start s t u : State} {past : Chronicle} {e : Occurrence} {task : TaskId}
  {i : ScopeId} {hosts K K' : ScopeId → Prop} {α : Type}

/-! ## Requests to stop -/

namespace Scheduler

variable {a b : Scheduler}

/-- What leaves requests alone asks no task to stop. -/
theorem stops_update_iff (change : Task → Task)
    (same : ∀ r, (change r).stopRequested = r.stopRequested) (t : TaskId) :
    (a.update t change).Stops task ↔ a.Stops task := by
  unfold Stops
  rw [task?_update]
  split
  · cases a.task? task with
    | none => simp
    | some r => simp [same]
  · rfl

theorem stops_start_iff (t : TaskId) : (a.start t).2.Stops task ↔ a.Stops task := by
  refine stops_update_iff (·.start.2) (fun r => ?_) t
  unfold Task.start
  split
  · rfl
  · split
    · rfl
    · rfl

theorem stops_leave_iff (t : TaskId) : (a.leave t).Stops task ↔ a.Stops task :=
  stops_update_iff Task.leave (fun _ => rfl) t

theorem stops_finish_iff (t : TaskId) (st : TaskStatus) :
    (a.finish t st).Stops task ↔ a.Stops task :=
  stops_update_iff (·.finish st) (fun _ => rfl) t

theorem stops_take_iff {job : Job} (taken : a.take? none = some (job, b)) :
    b.Stops task ↔ a.Stops task := by
  unfold Stops
  rw [task?_of_take taken]

/-- A task that has just been spawned has not been asked to stop. -/
theorem stops_of_spawn {work : Work} {p : Position} {w : Option WorkerId}
    (h : (a.spawn work p w).Stops task) : a.Stops task := by
  obtain ⟨r, found, asked⟩ := h
  rw [task?_spawn] at found
  split at found
  · cases found
    cases asked
  · exact ⟨r, found, asked⟩

/-- To ask some tasks to stop asks no other. -/
theorem stops_of_cancels (tasks : List TaskId) (h : (tasks.foldl cancel a).Stops task) :
    task ∈ tasks ∨ a.Stops task := by
  obtain ⟨r, found, asked⟩ := h
  rw [task?_cancels] at found
  split at found
  · next there => exact Or.inl there
  · exact Or.inr ⟨r, found, asked⟩

theorem stops_of_cancel (t : TaskId) (h : (a.cancel t).Stops task) : task = t ∨ a.Stops task :=
  (stops_of_cancels [t] h).imp_left List.mem_singleton.mp

end Scheduler

/-! ## What becomes of the registry -/

/-- What the occurrence makes of the registry: a module statement that has succeeded registers the
scope that it has made. -/
def Occurrence.registers : Occurrence → Registry → Registry
  | .answered (.question (.execute ⟨_, .moduleBlock name _⟩ _ _)) s (.ok _) _, modules =>
    modules.register name s.scopes.next
  | _, modules => modules

/-- The occasion is a module statement. -/
def Occasion.IsModule : Occasion → Prop
  | .question (.execute stmt _ _) => ∃ name body, stmt.form = .moduleBlock name body
  | _ => False

/-- Nothing but a module statement registers anything. -/
theorem Occurrence.registers_of_not_module {o : Occasion} (other : ¬ o.IsModule) (s : State)
    (a : o.Reply) (t : State) (modules : Registry) :
    registers (.answered o s a t) modules = modules := by
  match o with
  | .command c => rfl
  | .question (.execute ⟨p, form⟩ scope cx) =>
      cases form with
      | moduleBlock name body => exact absurd ⟨name, body, rfl⟩ other
      | _ => rfl
  | .question (.evaluate ..) | .question (.call ..) | .question (.block ..)
  | .question (.iterate _) | .question (.work _) | .question (.drain _)
  | .question (.await _) => rfl

/-- An occasion has asked the task to stop. -/
def Chronicle.Cancelled (past : Chronicle) (task : TaskId) : Prop :=
  ∃ (o : Occasion) (s : State) (a : o.Reply) (t : State),
    .answered o s a t ∈ past ∧ o.Cancels s task

theorem Exec.onHeld_apply {ε : Type} (t : TaskId) (reply : Exec ε TaskReply) (s : State) :
    Exec.onHeld t reply s = if s.held.contains t then reply s else .done (.ok .notFound) s := by
  show (if s.held.contains t then reply else pure .notFound) s = _
  split
  · rfl
  · rfl

/-! ## Laws -/

/-- What holds after something has happened, and the scopes that somebody may still have. -/
structure Law (holds : Chronicle → State → Prop) (has : Chronicle → State → ScopeId → Prop) :
    Prop where
  /-- Something has happened in scopes that somebody has. -/
  onlyIn : ∀ {past : Chronicle} {K : ScopeId → Prop} {s t : State}, holds past s →
    (∀ i, K i → has past s i) → s.OnlyIn K t → holds past t
  /-- He still has them, and those that he has made. -/
  having : ∀ {past : Chronicle} {K : ScopeId → Prop} {s t : State} {i : ScopeId}, holds past s →
    (∀ i, K i → has past s i) → s.OnlyIn K t → Having K s t i → has past t i
  /-- Something has been done that is no business of scopes, modules and requests. -/
  change : ∀ {past : Chronicle} {s t : State}, holds past s → t.scopes = s.scopes →
    t.modules = s.modules → (∀ task, t.scheduler.Stops task → s.scheduler.Stops task) →
    holds past t
  /-- Something has happened, and what it has made of modules and requests is known. -/
  concat : ∀ {past : Chronicle} {e : Occurrence} {s : State}, holds past s →
    e.state.scopes = s.scopes → e.state.modules = e.registers s.modules →
    (∀ task, e.state.scheduler.Stops task →
      s.scheduler.Stops task ∨ Chronicle.Cancelled [e] task) → holds (past ++ [e]) e.state
  asked : ∀ {past : Chronicle} {s : State} {i : ScopeId}, has past s i →
    ∀ o u, has (past ++ [.asked o u]) s i
  /-- Whoever has asked something has the scopes that he had. -/
  answered : ∀ {config : Config} {past inner : Chronicle} {o : Occasion} {s t : State} {a : o.Reply}
    {i : ScopeId}, has past s i →
    Resumption.Unfolds (watched config) (watched config o s) inner a t →
    holds (past ++ .asked o s :: inner ++ [.answered o s a t]) t →
    has (past ++ .asked o s :: inner ++ [.answered o s a t]) t i

/-- What is asked is asked in a scope of a kind. -/
def Occurrence.AsksIn (K : ScopeId → Prop) : Occurrence → Prop
  | .asked (.question q) _ => q.In K
  | _ => True

/-- The law holds when something happens, and what is asked is asked in a scope that somebody still
has. -/
structure Lawful (holds : Chronicle → State → Prop)
    (has : Chronicle → State → ScopeId → Prop) (past : Chronicle) (e : Occurrence) : Prop where
  holds : holds (past ++ [e]) e.state
  place : e.AsksIn (has past e.state)

/-- A host runs things in its own scopes, and what it does otherwise is within the law. -/
def Act.Within (hosts : ScopeId → Prop) (holds : Chronicle → State → Prop)
    (has : Chronicle → State → ScopeId → Prop) : Act → Prop
  | .command _ | .call .. => True
  | .script _ scope | .body _ scope | .block _ scope _ | .statement _ scope _
  | .evaluate _ scope => hosts scope
  | .arrange change _ => ∀ (past : Chronicle) (s : State), holds past s →
    (∀ i, hosts i → has past s i) →
    holds past (change s) ∧ ∀ i, hosts i → has past (change s) i

/-- What an occasion asks in its own scope it asks in one that somebody has. -/
theorem Lawful.owned {holds : Chronicle → State → Prop} {has : Chronicle → State → ScopeId → Prop}
    {q : Request} {scope : ScopeId} (asked : Lawful holds has past (.asked (.question q) s))
    (own : q.In (has past s) → has past s scope) : ∀ i, i = scope → has past s i := by
  rintro i rfl
  exact own asked.place

namespace Law

variable {holds : Chronicle → State → Prop} {has : Chronicle → State → ScopeId → Prop}
  (law : Law holds has)
include law

/-- Something has happened that is not about modules or requests. -/
theorem plain (h : holds past e.state) (other : ∀ modules, e.registers modules = modules) :
    holds (past ++ [e]) e.state :=
  law.concat h rfl (other _).symm fun _ => Or.inl

/-- A computation that keeps to scopes that are still used goes on like this. -/
theorem fits_contained {ends : State → α → State → Prop} {r : Asking α} (h : holds past s)
    (owned : ∀ i, K i → has past s i) (hr : Contained ends K s r) :
    Resumption.Fits (watched config) (Lawful holds has) (watch r) past
      fun past a t => ∃ u, holds past u ∧ (∀ i, K i → has past u i) ∧ ends u a t := by
  induction r generalizing past s K with
  | done a t =>
      obtain ⟨u, only, ended⟩ := hr
      exact ⟨u, law.onlyIn h owned only, fun i mine => law.having h owned only (.inl mine), ended⟩
  | ask q t resume ih =>
      obtain ⟨only, place, rest⟩ := hr
      have had : ∀ i, Having K s t i → has past t i := fun i => law.having h owned only
      have asked : Lawful holds has past (.asked (.question q) t) :=
        ⟨law.plain (law.onlyIn h owned only) fun _ => rfl, place.mono had⟩
      refine ⟨asked, fun inner b u run answered => ?_⟩
      have goesOn := ih b u answered.holds
        (fun i mine => law.answered (had i mine) run answered.holds) (rest b u)
      refine goesOn.mono fun past a v there => ?_
      obtain ⟨w, kept, keeps, ended⟩ := there
      exact ⟨w, kept, fun i mine => keeps i (Or.inl mine), ended⟩

/-- An occasion that is seen to by a computation that keeps to its scopes. -/
theorem fits_keeping {o : Occasion} {r : Asking o.Reply}
    (asked : Lawful holds has past (.asked o s))
    (owned : ∀ i, K i → has past s i) (hr : Contained Calmly K s r)
    (other : ¬ o.IsModule) :
    Resumption.Fits (watched config) (Lawful holds has) (watch r) (past ++ [.asked o s])
      fun past a t => Lawful holds has past (.answered o s a t) := by
  refine (law.fits_contained asked.holds (fun i mine => law.asked (owned i mine) o s) hr).mono
    fun past a t there => ?_
  obtain ⟨_, kept, -, rfl⟩ := there
  exact ⟨law.plain kept (Occurrence.registers_of_not_module other s a t), trivial⟩

/-- An occasion that is over at once, and changes no scopes. -/
theorem atOnce {o : Occasion} {a : o.Reply}
    (asked : Lawful holds has past (.asked o s)) (scopes : t.scopes = s.scopes)
    (modules : t.modules = s.modules) (other : ¬ o.IsModule)
    (requests : ∀ task, t.scheduler.Stops task → o.Cancels s task ∨ s.scheduler.Stops task) :
    Lawful holds has (past ++ [.asked o s]) (.answered o s a t) where
  holds := by
    refine law.concat asked.holds scopes ?_ fun task stops => ?_
    · exact modules.trans (Occurrence.registers_of_not_module other s a t s.modules).symm
    · exact (requests task stops).symm.imp_right fun cancels =>
        ⟨o, s, a, t, List.mem_singleton_self _, cancels⟩
  place := trivial

/-- A statement may register a module or spawn a task. -/
theorem fits_execute {stmt : Stmt} {scope : ScopeId} {cx : Context}
    (asked : Lawful holds has past (.asked (.question (.execute stmt scope cx)) s)) :
    Resumption.Fits (watched config) (Lawful holds has)
      (watch (Exec.executeBody stmt scope cx s))
      (past ++ [.asked (.question (.execute stmt scope cx)) s])
      fun past o t =>
        Lawful holds has past (.answered (.question (.execute stmt scope cx)) s o t) := by
  obtain ⟨p, form⟩ := stmt
  have owned : ∀ i, i = scope → has past s i := asked.owned id
  have other (modules : ∀ name body, form ≠ .moduleBlock name body) (spawn : ∀ x, form ≠ .spawn x) :
      Resumption.Fits (watched config) (Lawful holds has)
        (watch (Exec.executeBody ⟨p, form⟩ scope cx s))
        (past ++ [.asked (.question (.execute ⟨p, form⟩ scope cx)) s])
        fun past o t =>
          Lawful holds has past (.answered (.question (.execute ⟨p, form⟩ scope cx)) s o t) := by
    refine law.fits_keeping asked owned ?_ fun ⟨name, body, same⟩ => modules name body same
    exact Exec.walk_keepsTo.executeBody (K := (· = scope)) rfl ⟨p, form⟩ cx
      (fun name body same => absurd same (modules name body))
      (fun x same => absurd same (spawn x)) s
  cases form with
  | moduleBlock name body =>
      refine (law.fits_contained asked.holds (fun i mine => law.asked (owned i mine) _ s)
        (Exec.contained_module p name body scope cx s)).mono fun past o t there => ⟨?_, trivial⟩
      obtain ⟨u, kept, -, ⟨rfl, rfl⟩ | ⟨failed, rfl⟩⟩ := there
      · exact law.concat kept rfl rfl fun _ => Or.inl
      · refine law.plain kept fun modules => ?_
        cases o with
        | ok c => exact absurd rfl (failed c)
        | raised e | panicked m => rfl
  | spawn x =>
      refine (law.fits_contained asked.holds (fun i mine => law.asked (owned i mine) _ s)
        (Exec.contained_runSpawn p x (K := (· = scope)) rfl s)).mono
        fun past o t there => ⟨?_, trivial⟩
      obtain ⟨u, kept, -, ⟨rfl, work, rfl⟩ | ⟨rfl, -⟩⟩ := there
      · exact law.concat kept rfl rfl fun _ stops => Or.inl (Scheduler.stops_of_spawn stops)
      · exact law.plain kept fun _ => by cases o with
        | ok | raised | panicked => rfl
  | _ => exact other nofun nofun

/-- A builtin that is about requests to stop does nothing else. -/
theorem fits_stopping {b : Builtin} {args : List Value} (stopping : b.IsAboutStopping)
    (asked : Lawful holds has past (.asked (.question (.call (.builtin b) args)) s)) :
    Resumption.Fits (watched config) (Lawful holds has)
      (watch (Exec.callBuiltin b args s)) (past ++ [.asked (.question (.call (.builtin b) args)) s])
      fun past o t =>
        Lawful holds has past (.answered (.question (.call (.builtin b) args)) s o t) := by
  cases b with
  | cancel =>
      dsimp only [Exec.callBuiltin]
      rw [Exec.bind_apply]
      cases named : Exec.liveTask s args.head? with
      | none =>
          simp only [Exec.read, Resumption.done_bind, named]
          exact law.atOnce asked rfl rfl id fun _ => Or.inr
      | some t =>
          simp only [Exec.read, Resumption.done_bind, named]
          refine law.atOnce asked rfl rfl id fun task stops => ?_
          refine (Scheduler.stops_of_cancel t stops).imp_left ?_
          rintro rfl
          exact named
  | cancelAll =>
      exact law.atOnce asked rfl rfl id fun task stops => Scheduler.stops_of_cancels _ stops
  | raiseCancelled => exact law.atOnce asked rfl rfl id fun _ => Or.inr
  | _ => exact stopping.elim

theorem fits_callBody {f : FunctionRef} {args : List Value}
    (asked : Lawful holds has past (.asked (.question (.call f args)) s)) :
    Resumption.Fits (watched config) (Lawful holds has)
      (watch (Exec.callBody config f args s)) (past ++ [.asked (.question (.call f args)) s])
      fun past o t => Lawful holds has past (.answered (.question (.call f args)) s o t) := by
  by_cases stopping : ∃ b : Builtin, f = .builtin b ∧ b.IsAboutStopping
  · obtain ⟨b, rfl, about⟩ := stopping
    exact law.fits_stopping about asked
  · have keeps : (Exec.callBody config f args).KeepsTo fun _ => False :=
      Exec.walk_keepsTo.callBody config f args fun b same about =>
        absurd ⟨b, same, about⟩ stopping
    exact law.fits_keeping asked (fun _ none => none.elim) (keeps s) id

/-! ### The queue -/

/-- A drain that goes on is over when what it goes on with is over. -/
theorem fits_goesOn {ran next : Nat} (h : holds past t) :
    Resumption.Fits (watched config) (Lawful holds has) (watch (.ask (.drain next) t .done))
      past fun past n u => Lawful holds has past (.answered (.question (.drain ran)) s n u) :=
  ⟨⟨law.plain h fun _ => rfl, trivial⟩, fun _ _ _ _ answered =>
    ⟨law.plain (e := .answered (.question (.drain ran)) s _ _) answered.holds fun _ => rfl,
      trivial⟩⟩

/-- To run the tasks of the queue registers nothing and asks none of them to stop. -/
theorem fits_drain {ran : Nat}
    (asked : Lawful holds has past (.asked (.question (.drain ran)) s)) :
    Resumption.Fits (watched config) (Lawful holds has) (watch (Exec.drainBody ran s))
      (past ++ [.asked (.question (.drain ran)) s])
      fun past n t => Lawful holds has past (.answered (.question (.drain ran)) s n t) := by
  rw [Exec.drainBody_eq]
  cases taken : s.scheduler.take? none with
  | none => exact law.atOnce asked rfl rfl id fun _ => Or.inr
  | some found =>
      obtain ⟨job, rest⟩ := found
      dsimp only
      cases started : rest.start job.task with
      | mk yes scheduler =>
          have same : ∀ task, scheduler.Stops task → s.scheduler.Stops task := by
            intro task stops
            rw [← Scheduler.stops_take_iff taken, ← Scheduler.stops_start_iff job.task, started]
            exact stops
          cases yes with
          | false =>
              refine law.fits_goesOn (law.change
                (t := { s with scheduler := scheduler.leave job.task }) asked.holds rfl rfl
                fun task stops => ?_)
              exact same task ((Scheduler.stops_leave_iff job.task).mp stops)
          | true =>
              have begun := law.change (t := { s with scheduler, running := some job.task })
                asked.holds rfl rfl same
              refine ⟨⟨law.plain (e := .asked (.question (.work job.work)) _) begun
                fun _ => rfl, trivial⟩, fun inner o t _ answered => ?_⟩
              have settled := law.change
                (t := State.settle { t with running := s.running } job.task o) answered.holds
                (State.settle_scopes _ _ _) (State.settle_modules _ _ _) fun task stops => by
                  rw [State.settle_scheduler, Scheduler.stops_leave_iff,
                    Scheduler.stops_finish_iff] at stops
                  exact stops
              exact law.fits_goesOn settled

/-! ### Commands and sessions -/

/-- A command that asks a task to stop asks no other. -/
theorem fits_held {c : TaskCommand} {t : TaskId} {reply : Exec Raise TaskReply}
    (asked : Lawful holds has past (.asked (.command c) s))
    (cancels : s.held.contains t = true → (Occasion.command c).Cancels s t)
    (does : ∃ o, reply s = .done o { s with scheduler := s.scheduler.cancel t }) :
    Resumption.Fits (watched config) (Lawful holds has) (watch (Exec.onHeld t reply s))
      (past ++ [.asked (.command c) s])
      fun past o t => Lawful holds has past (.answered (.command c) s o t) := by
  rw [Exec.onHeld_apply]
  split
  · next held =>
    obtain ⟨o, done⟩ := does
    rw [done]
    refine law.atOnce asked rfl rfl id fun task stops => ?_
    refine (Scheduler.stops_of_cancel t stops).imp_left ?_
    rintro rfl
    exact cancels held
  · exact law.atOnce asked rfl rfl id fun _ => Or.inr

theorem fits_command {c : TaskCommand} (asked : Lawful holds has past (.asked (.command c) s)) :
    Resumption.Fits (watched config) (Lawful holds has) (watch (Exec.runCommand c s))
      (past ++ [.asked (.command c) s])
      fun past o t => Lawful holds has past (.answered (.command c) s o t) := by
  have plain (other : ¬ c.IsChange) :
      Resumption.Fits (watched config) (Lawful holds has) (watch (Exec.runCommand c s))
        (past ++ [.asked (.command c) s])
        fun past o t => Lawful holds has past (.answered (.command c) s o t) := by
    have keeps : (Exec.runCommand c : Exec Raise TaskReply).KeepsTo fun _ => False :=
      Exec.walk_keepsTo.runCommand Raise.failed Exec.keepsTo_waitFor other
    exact law.fits_keeping asked (fun _ none => none.elim) (keeps s) id
  cases c with
  | spawn name body args p =>
      exact law.atOnce asked rfl rfl id fun _ stops => Or.inr (Scheduler.stops_of_spawn stops)
  | cancel t => exact law.fits_held asked (fun held => ⟨rfl, held⟩) ⟨_, rfl⟩
  | cancelQuietly t => exact law.fits_held asked (fun held => ⟨rfl, held⟩) ⟨_, rfl⟩
  | cancelAll => exact law.atOnce asked rfl rfl id fun _ stops => Scheduler.stops_of_cancels _ stops
  | takeFailures => exact law.atOnce asked rfl rfl id fun _ => Or.inr
  | _ => exact plain id

/-- What the function of a host does is put down to its commands. -/
theorem fits_actions {name : String} {args : List Value} {body : List TaskAction}
    (h : holds past s) :
    Resumption.Fits (watched config) (Lawful holds has) (performWatched name args body s) past
      fun past _ t => holds past t := by
  induction body generalizing past s with
  | nil => exact h
  | cons action rest ih =>
      cases action with
      | command c =>
          refine ⟨⟨law.plain (e := .asked (.command c) s) h fun _ => rfl, trivial⟩,
            fun inner o t _ answered => ?_⟩
          cases o with
          | ok reply => exact ih (law.change answered.holds rfl rfl fun _ => id)
          | raised e | panicked m => exact answered.holds
      | arguments => exact ih (law.change h rfl rfl fun _ => id)
      | finish | throw | fail | panic => exact h

/-- Whatever a host is asked to do, it is put down to an occasion. -/
theorem fits_occasion (past : Chronicle) (o : Occasion) (s : State)
    (asked : Lawful holds has past (.asked o s)) :
    Resumption.Fits (watched config) (Lawful holds has) (watched config o s)
      (past ++ [.asked o s]) fun past a t => Lawful holds has past (.answered o s a t) := by
  have walk := Exec.walk_keepsTo
  cases o with
  | command c => exact law.fits_command asked
  | question q =>
      cases q with
      | evaluate e scope =>
          have keeps : (Exec.evaluateBody e scope).KeepsTo (· = scope) :=
            walk.evaluateBody (K := (· = scope)) rfl e
          exact law.fits_keeping asked (asked.owned id) (keeps s) id
      | call f args => exact law.fits_callBody asked
      | execute stmt scope cx => exact law.fits_execute asked
      | block body scope cx =>
          have keeps : (Exec.blockBody body scope cx).KeepsTo (· = scope) :=
            walk.blockBody (K := (· = scope)) rfl body cx
          exact law.fits_keeping asked (asked.owned id) (keeps s) id
      | iterate loop =>
          have keeps : (Exec.iterateBody loop).KeepsTo (· = loop.scope) := walk.iterateBody rfl
          exact law.fits_keeping asked (asked.owned id) (keeps s) id
      | work w =>
          cases w with
          | call f args =>
              have keeps : (Exec.call f args).KeepsTo fun _ => False := walk.call f args
              exact law.fits_keeping asked (fun _ none => none.elim) (keeps s) id
          | perform name body args =>
              exact (law.fits_actions asked.holds).mono fun past a t there =>
                ⟨law.plain there fun _ => rfl, trivial⟩
      | drain ran => exact law.fits_drain asked
      | await what => exact law.atOnce asked rfl rfl id fun _ => Or.inr

/-- The law holds after what a host has done, and the host still has its scopes. -/
theorem fits_act {act : Act} (within : act.Within hosts holds has) (h : holds past s)
    (owned : ∀ i, hosts i → has past s i) :
    Resumption.Fits (watched config) (Lawful holds has) (act.perform config s) past
      fun past _ t => holds past t ∧ ∀ i, hosts i → has past t i := by
  have walk := Exec.walk_keepsTo
  have ended : ∀ {ε α : Type} {x : Exec ε α}, x.KeepsTo hosts →
      Resumption.Fits (watched config) (Lawful holds has) (Act.perform.ended (x s)) past
        fun past _ t => holds past t ∧ ∀ i, hosts i → has past t i := by
    refine fun hx => Resumption.fits_bind ((law.fits_contained h owned (hx s)).mono
      fun past a t there => ?_)
    obtain ⟨_, kept, still, rfl⟩ := there
    exact ⟨kept, still⟩
  cases act with
  | command c =>
      exact ⟨⟨law.plain (e := .asked (.command c) s) h fun _ => rfl, trivial⟩,
        fun inner o t run answered => ⟨answered.holds, fun i mine =>
          law.answered (owned i mine) run answered.holds⟩⟩
  | script stmts scope => exact ended (walk.runScript config within stmts)
  | body stmts scope => exact ended (walk.callBlock config within stmts)
  | block stmts scope cx => exact ended (walk.runBlock within stmts cx)
  | statement stmt scope cx => exact ended (walk.execute within stmt cx)
  | evaluate e scope => exact ended (walk.evaluate within e)
  | call f args => exact ended (walk.call f args)
  | arrange change apart => exact within past s h owned

theorem fits_acts {acts : List Act} (within : ∀ act ∈ acts, act.Within hosts holds has)
    (h : holds past s) (owned : ∀ i, hosts i → has past s i) :
    Resumption.Fits (watched config) (Lawful holds has) (session config acts s) past
      fun past _ t => holds past t := by
  induction acts generalizing past s with
  | nil => exact h
  | cons act rest ih =>
      obtain ⟨first, later⟩ := List.forall_mem_cons.mp within
      exact Resumption.fits_bind ((law.fits_act first h owned).mono fun _ _ _ there =>
        ih later there.1 there.2)

/-- **A law that holds at the start holds whenever something happens in a session.** -/
theorem of_session {acts : List Act} (initial : holds [] start)
    (owned : ∀ i, hosts i → has [] start i) (within : ∀ act ∈ acts, act.Within hosts holds has)
    (shown : Resumption.Shows (watched config) (session config acts start) past e) :
    Lawful holds has past e :=
  Resumption.fits_sound law.fits_occasion shown (law.fits_acts within initial owned)

end Law

end StatementEngine
