import StatementEngine.Proofs.Laws
import StatementEngine.Proofs.Run.Strict

/-!
# A request to stop is one task's own business

**A statement fails with `cancelled` only in a task that has itself been asked to stop**
(`Confined`). Statements look at the innermost task being run, and at none outside of tasks; whoever
runs a task goes back to the task from before, however the work ends. So to cancel one task stops
neither the host nor any other task, and a script that is run outside of tasks is never stopped.

Only one function of the host fails with `cancelled` of its own accord. Where it is not called, such
a failure comes from the question before a statement or an iteration (`Exec.Heeds`), which is passed
on at once, so the state at the end is still the one in which the question was put.

The main result is `cancellation_confined`.
-/

namespace StatementEngine

variable {config : Config} {s t : State} {α β ε : Type}

/-! ## Where the failure comes from -/

/-- The answer says that a task was to stop. -/
def Answer.Stopped (q : Request) (a : Answer q) : Prop :=
  ∃ e, Answer.Fails q e a ∧ e.kind = .cancelled

/-- The question is a call of the function that fails with `cancelled` of its own accord. -/
def Request.FeignsStop : Request → Prop
  | .call (.builtin .raiseCancelled) _ => True
  | _ => False

/-- Whoever is answered that a task was to stop is in a task that is to stop. -/
def heeding : Contract where
  requires _ _ := True
  promises q _ a t := Answer.Stopped q a → t.stopRequested = true

theorem Outcome.stopped_mapError {fail : EngineError → ε} {fail' : EngineError → β} {f : ε → β}
    (inv : ∀ e e', f e = fail' e' → ∃ e'', e = fail e'' ∧ e''.kind = e'.kind) {o : Outcome ε α}
    (h : (o.mapError f).Stopped fail') : o.Stopped fail := by
  obtain ⟨e', same, cancelled⟩ := h
  obtain ⟨e, rfl, image⟩ := Outcome.raised_eq_mapError_iff.mp same.symm
  obtain ⟨e'', rfl, kind⟩ := inv e e' image.symm
  exact ⟨e'', rfl, kind.trans cancelled⟩

namespace Exec

/-- If the computation fails since a task was to stop, it ends in a task that is to stop, provided
that so do its questions. -/
def Heeds (fail : EngineError → ε) (x : Exec ε α) : Prop :=
  Function.Injective fail → ∀ s, Resumption.Ensures heeding.requires heeding.promises (x s)
    fun o t => o.Stopped fail → t.stopRequested = true

variable {fail : EngineError → ε}

theorem heeds_bind {x : Exec ε α} {f : α → Exec ε β} (hx : x.Heeds fail)
    (hf : ∀ a, (f a).Heeds fail) : (x >>= f).Heeds fail := by
  intro inj s
  rw [bind_apply, Resumption.ensures_bind]
  refine (hx inj s).mono fun o t ends => ?_
  cases o with
  | ok a => exact hf a inj t
  | raised e =>
      rintro ⟨e', same, cancelled⟩
      cases same
      exact ends ⟨e', rfl, cancelled⟩
  | panicked m => exact nofun

theorem heeds_mapError {δ : Type} {fail' : EngineError → δ} {f : ε → δ} {x : Exec ε α}
    (hx : x.Heeds fail) (injective : Function.Injective fail)
    (inv : ∀ e e', f e = fail' e' → ∃ e'', e = fail e'' ∧ e''.kind = e'.kind) :
    (x.mapError f).Heeds fail' := by
  intro _ s
  unfold mapError
  rw [Resumption.ensures_bind]
  exact (hx injective s).mono fun o t ends stopped => ends (Outcome.stopped_mapError inv stopped)

theorem injective_failed : Function.Injective Raise.failed := fun _ _ => Raise.failed.inj

theorem heeds_failing {x : Exec EngineError α} (hx : x.Heeds id) :
    (failing x).Heeds Raise.failed := by
  refine heeds_mapError hx Function.injective_id fun e e' same => ?_
  cases same
  exact ⟨e, rfl, rfl⟩

theorem heeds_fillPosition {x : Exec Raise α} (hx : x.Heeds Raise.failed) (p : Position) :
    (x.mapError (·.fillPosition p)).Heeds Raise.failed := by
  refine heeds_mapError hx injective_failed fun r e' same => ?_
  cases r with
  | thrown v at? => cases same
  | failed e =>
      cases same
      exact ⟨e, rfl, rfl⟩

theorem heeds_located {x : Exec Raise Completion} (hx : x.Heeds Raise.failed) (p : Position) :
    (located p x).Heeds id := by
  intro _ s
  unfold located
  rw [Resumption.ensures_bind]
  refine (hx injective_failed s).mono fun o t ends => ?_
  rintro ⟨e', same, cancelled⟩
  match o, same with
  | .raised (.failed e), same =>
      cases same
      exact ends ⟨e, rfl, cancelled⟩

theorem Plain.heeds {K : ScopeId → Prop} {x : Exec ε α} (h : Plain K fail x) : x.Heeds fail := by
  intro _ s
  obtain ⟨o, t, hx, -, other⟩ := h s
  rw [hx]
  exact fun stopped => absurd stopped other

/-- The question whether to stop fails only in a task that is to stop. -/
theorem heeds_checkStop : checkStop.Heeds id := by
  intro _ s
  unfold checkStop
  split
  · next asked => exact fun _ => asked
  · exact nofun

theorem heeds_entered {limit : Option Nat} {x : Exec ε α} (hx : x.Heeds fail) :
    (entered limit fail x).Heeds fail := by
  intro inj s
  unfold entered
  split
  · next kind refused =>
    obtain ⟨max, -, -, rfl⟩ := enterCall_eq_error refused
    rintro ⟨e, same, cancelled⟩
    rw [← inj (Outcome.raised.inj same)] at cancelled
    cases cancelled
  · unfold thenAlways
    rw [Resumption.ensures_bind]
    exact (hx inj _).mono fun o t ends => ends

/-- Outside of the queue all bodies are like this, but for the one function of the host. -/
theorem walk_heeds : Walk fun _ => fun fail x => x.Heeds fail where
  plain h := h.heeds
  stop := heeds_checkStop
  stopAt p := heeds_mapError heeds_checkStop Function.injective_id fun e e' same => by
    obtain rfl : e.locate p = e' := same
    exact ⟨e, rfl, rfl⟩
  child scope _ hf inj s := hf s.scopes.next inj (s.newChild scope).2
  bind := heeds_bind
  failing := heeds_failing
  fillPosition := heeds_fillPosition
  located := heeds_located
  entered := heeds_entered
  evaluate _ _ _ _ := ⟨trivial, fun _ _ answered => answered⟩
  call _ _ _ _ := ⟨trivial, fun _ _ answered => answered⟩
  execute _ _ _ _ _ := ⟨trivial, fun _ _ answered => answered⟩
  runBlock _ _ _ _ _ := ⟨trivial, fun _ _ answered => answered⟩
  iterate _ _ _ := ⟨trivial, fun _ _ answered => answered⟩
  runPending _ s := by
    unfold runPending
    split
    · exact nofun
    · exact ⟨trivial, fun _ _ _ => nofun⟩

theorem heeds_pure (a : α) : (pure a : Exec ε α).Heeds fail :=
  (plain_pure (K := fun _ => True) a).heeds

theorem heeds_modify {f : State → State} : (modify f : Exec ε Unit).Heeds fail := by
  rintro _ s ⟨_, ended, _⟩
  cases ended

theorem heeds_runModule (p : Position) (name : Name) (body : Block) (scope : ScopeId) :
    (runModule p name body scope).Heeds id := by
  refine walk_heeds.child (K := fun _ => True) scope fun inner => ?_
  refine heeds_bind (walk_heeds.runBlock (K := fun _ => True) trivial body .ofModule) fun c => ?_
  split
  · exact heeds_bind heeds_modify fun _ => heeds_pure _
  · exact (plain_raiseError (K := fun _ => True) (by simp [EngineError.ofKind])).heeds

theorem heeds_runSpawn (p : Position) (e : Expr) (scope : ScopeId) :
    (runSpawn p e scope).Heeds Raise.failed := by
  unfold runSpawn
  split
  · refine heeds_bind (walk_heeds.evaluateCall (K := fun _ => True) trivial _ _) fun fvs => ?_
    exact heeds_bind heeds_modify fun _ => heeds_pure _
  · exact (plain_raise (K := fun _ => True) rfl).heeds

/-- To ask tasks to stop does not fail. -/
theorem heeds_callBuiltin (b : Builtin) (args : List Value) (other : b ≠ .raiseCancelled) :
    (callBuiltin b args).Heeds Raise.failed := by
  refine walk_heeds.callBuiltin (K := fun _ => True) b args fun stopping => ?_
  cases b with
  | cancel =>
      refine heeds_bind (plain_read (K := fun _ => True) _).heeds fun t? => ?_
      split
      · exact heeds_bind heeds_modify fun _ => heeds_pure _
      · exact heeds_pure _
  | cancelAll => exact heeds_bind heeds_modify fun _ => heeds_pure _
  | raiseCancelled => exact absurd rfl other
  | _ => exact stopping.elim

end Exec

/-- Every question is answered in keeping with the contract, but for calls of that function. -/
theorem heeding_ensures (config : Config) {q : Request} (other : ¬ q.FeignsStop) (s : State) :
    Resumption.Ensures heeding.requires heeding.promises (Interpreter.bodies config q s)
      (heeding.promises q s) := by
  have walk := Exec.walk_heeds
  cases q with
  | evaluate e scope =>
      exact walk.evaluateBody (K := fun _ => True) trivial e Exec.injective_failed s
  | call f args =>
      refine walk.callBody (K := fun _ => True) config f args (fun b same _ => ?_)
        Exec.injective_failed s
      refine Exec.heeds_callBuiltin b args fun feigned => other ?_
      subst same feigned
      trivial
  | execute stmt scope cx =>
      exact walk.executeBody (K := fun _ => True) trivial stmt cx
        (fun name body _ => Exec.heeds_runModule stmt.position name body scope)
        (fun e _ => Exec.heeds_runSpawn stmt.position e scope) Function.injective_id s
  | block body scope cx =>
      exact walk.blockBody (K := fun _ => True) trivial body cx Function.injective_id s
  | iterate loop =>
      exact walk.iterateBody (K := fun _ => True) trivial Exec.injective_failed s
  | work w | drain ran | await what =>
      refine (Resumption.ensures_of_asks (fun _ _ => trivial) _).mono fun _ _ _ stopped => ?_
      obtain ⟨e, fails, -⟩ := stopped
      exact fails.elim

/-! ## Occasions -/

/-- What the contract promises, on any occasion. -/
def Occasion.Heeds : (o : Occasion) → State → o.Reply → State → Prop
  | .question q, s, a, t => heeding.promises q s a t
  | .command _, _, _, _ => True

theorem ensures_watch {r : Asking α} {post : α → State → Prop}
    (h : Resumption.Ensures heeding.requires heeding.promises r post) :
    Resumption.Ensures (fun _ _ => True) Occasion.Heeds (watch r) post := by
  induction r with
  | done a s => exact h
  | ask q s resume ih => exact ⟨trivial, fun b t answered => ih b t (h.2 b t answered)⟩

/-- The occasion is a call of the function that fails with `cancelled` of its own accord. -/
def Occasion.FeignsStop : Occasion → Prop
  | .question q => q.FeignsStop
  | .command _ => False

theorem heeds_occasion (config : Config) {o : Occasion} (other : ¬ o.FeignsStop) (s : State) :
    Resumption.Ensures (fun _ _ => True) Occasion.Heeds (watched config o s) (o.Heeds s) := by
  cases o with
  | command c => exact Resumption.ensures_of_asks (fun _ _ => trivial) _
  | question q =>
      have genuine : ¬ q.FeignsStop := other
      cases q with
      | work w =>
          refine (Resumption.ensures_of_asks (fun _ _ => trivial) _).mono fun _ _ _ stopped => ?_
          obtain ⟨e, fails, -⟩ := stopped
          exact fails.elim
      | evaluate | call | execute | block | iterate | drain | await =>
          exact ensures_watch (heeding_ensures config genuine s)

/-- An answer that says that a task was to stop is given in a task that is to stop. -/
theorem stopRequested_of_stopped {q : Request} {inner : Chronicle} {a : Answer q}
    (run : Resumption.Unfolds (watched config) (watched config (.question q) s) inner a t)
    (genuine : ¬ (Occasion.question q).FeignsStop)
    (others : ∀ o u, .asked o u ∈ inner → ¬ o.FeignsStop) (stopped : Answer.Stopped q a) :
    t.stopRequested = true := by
  have each : ∀ (o : Occasion) (u : State), True → ¬ o.FeignsStop →
      Resumption.Ensures (fun _ _ => True) Occasion.Heeds (watched config o u) (o.Heeds u) :=
    fun o u _ genuine => heeds_occasion config genuine u
  exact run.ensures_of_fit each others (heeds_occasion config genuine s) stopped

/-! ## Who has asked a task to stop -/

theorem Chronicle.Cancelled.append {past : Chronicle} {task : TaskId} (h : past.Cancelled task)
    (rest : Chronicle) : Chronicle.Cancelled (past ++ rest) task := by
  obtain ⟨o, s, a, t, there, cancels⟩ := h
  exact ⟨o, s, a, t, List.mem_append_left rest there, cancels⟩

/-- Who has been asked to stop has been asked by an occasion, or was asked at the start. -/
def Requested (start : State) (past : Chronicle) (s : State) : Prop :=
  ∀ task, s.scheduler.Stops task → start.scheduler.Stops task ∨ past.Cancelled task

/-- It does not matter for requests which scopes are whose. -/
theorem Requested.law (start : State) : Law (Requested start) fun _ _ _ => True where
  onlyIn h _ only task stops := h task (only.scheduler ▸ stops)
  having _ _ _ _ := trivial
  change h _ _ requests task stops := h task (requests task stops)
  concat {past e _} h _ _ requests task stops := by
    rcases requests task stops with before | now
    · exact (h task before).imp_right (·.append [e])
    · obtain ⟨o, u, a, t, there, cancels⟩ := now
      exact Or.inr ⟨o, u, a, t, List.mem_append_right past there, cancels⟩
  asked _ _ _ := trivial
  answered _ _ _ := trivial

/-- Whatever a host does, it does not ask a task to stop but by its commands and functions. -/
theorem cancelled_of_stops {kind : SinkKind} {acts : List Act} {past : Chronicle} {e : Occurrence}
    {task : TaskId}
    (shown : Resumption.Shows (watched config) (session config acts (.initial .deferred kind))
      past e) (stops : e.state.scheduler.Stops task) : Chronicle.Cancelled (past ++ [e]) task := by
  let start : State := .initial .deferred kind
  have within : ∀ act ∈ acts,
      act.Within (fun _ => True) (Requested start) fun _ _ _ => True := by
    intro act _
    cases act with
    | arrange change apart =>
        exact fun past s h _ =>
          ⟨fun task stops => h task ((apart s).scheduler ▸ stops), fun _ => id⟩
    | _ => trivial
  have lawful := (Requested.law start).of_session (fun _ => Or.inl) (fun _ _ => trivial) within
    shown
  refine (lawful.holds task stops).resolve_left ?_
  -- at the start there are no tasks
  rintro ⟨r, found, -⟩
  simp [start, Scheduler.task?, State.initial, Scheduler.ofStrategy] at found

/-! ## Sessions -/

/-- Requests to stop do not get out of their task. -/
structure Confined (past : Chronicle) (e : Occurrence) : Prop where
  /-- Statements look at the innermost task being run, -/
  running : e.state.running = (past.underway e).head?
  /-- and nobody is to stop outside of tasks. -/
  consulted : e.state.stopRequested = true ↔
    ∃ task, (past.underway e).head? = some task ∧ e.state.scheduler.Stops task
  /-- Only an occasion that cancels a task asks it to stop. -/
  requested : ∀ task, e.state.scheduler.Stops task → Chronicle.Cancelled (past ++ [e]) task
  /-- When something is over, the task from before is running. -/
  restored : ∀ o s a t, e = .answered o s a t → t.running = s.running
  /-- What fails since a task was to stop is part of a task, and that task has been cancelled. -/
  own : (∀ o s, .asked o s ∈ past → ¬ o.FeignsStop) →
    ∀ q s a t, e = .answered (.question q) s a t → Answer.Stopped q a →
    ∃ task, (past.underway e).head? = some task ∧ Chronicle.Cancelled (past ++ [e]) task

theorem confined_of_session {kind : SinkKind} {acts : List Act} {past : Chronicle} {e : Occurrence}
    (shown : Resumption.Shows (watched config) (session config acts (.initial .deferred kind))
      past e) : Confined past e := by
  have ran {past : Chronicle} {e : Occurrence}
      (shown : Resumption.Shows (watched config) (session config acts (.initial .deferred kind))
        past e) : e.state.running = (past.underway e).head? :=
    (path_concat_iff.mp (path_of_session rfl shown)).2.2
  have consulted : e.state.stopRequested = true ↔
      ∃ task, (past.underway e).head? = some task ∧ e.state.scheduler.Stops task := by
    rw [stopRequested_iff, ran shown]
  have requested : ∀ task, e.state.scheduler.Stops task → Chronicle.Cancelled (past ++ [e]) task :=
    fun task => cancelled_of_stops shown
  refine ⟨ran shown, consulted, requested, ?_, ?_⟩
  · rintro o s a t rfl
    obtain ⟨before, inner, rfl, run⟩ := shown.unfolds
    have asked := ran (shown.earlier (List.append_assoc before (.asked o s :: inner) _))
    have answered := ran shown
    rw [underway_answered run] at answered
    exact answered.trans asked.symm
  · rintro genuine q s a t rfl stopped
    obtain ⟨before, inner, rfl, run⟩ := shown.unfolds
    have stop : t.stopRequested = true := by
      refine stopRequested_of_stopped run (genuine _ s (by simp)) (fun o u there => ?_) stopped
      exact genuine o u (by simp [there])
    obtain ⟨task, innermost, stops⟩ := consulted.mp stop
    exact ⟨task, innermost, requested task stops⟩

/-! ## Outside of tasks -/

namespace Exec

variable {fail : EngineError → ε}

theorem injective_everywhere (config : Config) :
    Everywhere config fun _ fail => Function.Injective fail where
  execute _ _ _ := Function.injective_id
  runBlock _ _ _ := Function.injective_id
  evaluate _ _ := injective_failed
  call _ _ := injective_failed
  callBlock _ _ := injective_failed
  runScript _ _ := Function.injective_id

/-- Where no task is being run, the computation does not fail since a task was to stop, whatever has
been asked of the tasks. -/
def NeverStops (config : Config) (x : Exec ε α) (fail : EngineError → ε) : Prop :=
  ∀ s trace o t, s.running = none → Resumption.Traces (Interpreter.bodies config) (x s) trace o t →
    (∀ p ∈ trace, ¬ p.1.FeignsStop) → t.running = none ∧ ¬ o.Stopped fail

theorem neverStops_everywhere (config : Config) :
    Everywhere config fun x fail => x.NeverStops config fail := by
  have walk := walk_heeds.everywhere config
  refine ((walk.and (injective_everywhere config)).and (.all (kept_everywhere config))).imp ?_
  intro _ _ x fail h s trace o t outside run genuine
  have idle : t.running = none := ((h.2 s o t run.evaluates).2).trans outside
  refine ⟨idle, fun stopped => ?_⟩
  have stop : t.stopRequested = true :=
    run.ensures_of_fit (fun q u _ fit => heeding_ensures config fit u) genuine
      (h.1.1 h.1.2 s) stopped
  obtain ⟨task, running, -⟩ := stopRequested_iff.mp stop
  exact Option.some_ne_none task (running.symm.trans idle)

end Exec

/-- **A request to stop is one task's own business.**

* Whatever happens in a session, requests to stop do not get out of their task.
* Whoever runs a task, or has the queue run, goes back to the task from before, however the tasks
  end.
* Outside of tasks nothing fails since a task was to stop. -/
theorem cancellation_confined (config : Config) :
    (∀ kind acts past e, Resumption.Shows (watched config)
      (session config acts (.initial .deferred kind)) past e → Confined past e) ∧
    (∀ (ε : Type) job s (o : Outcome ε Unit) t, Runs config (Exec.runJob job) s o t →
      t.running = s.running) ∧
    (∀ (ε : Type) s (o : Outcome ε Nat) t, Runs config Exec.runPending s o t →
      t.running = s.running) ∧
    Exec.Everywhere config fun x fail => x.NeverStops config fail := by
  refine ⟨fun kind acts past e => confined_of_session, fun ε job s o t run => ?_,
    fun ε s o t run => ?_, Exec.neverStops_everywhere config⟩
  · have keeps : Exec.Keeps frame (s.Kept (fun _ _ => True) s.callDepth s.running)
        (Exec.runJob job : Exec ε Unit) := Exec.kept_runJob job
    exact (keeps.runs (frame_honored config) (State.KeptSince.refl s) run).1.running
  · have keeps : Exec.Keeps frame (s.Kept (fun _ _ => True) s.callDepth s.running)
        (Exec.runPending : Exec ε Nat) :=
      Exec.meets_runPending (Exec.keeps_drain (frame_lets_silent fun _ _ h => h))
    exact (keeps.runs (frame_honored config) (State.KeptSince.refl s) run).1.running

/-- A host has cancelled a task and goes on: it executes a statement, and then runs a script. -/
theorem cancellation_confined_spawned :
    let stmt : Stmt := ⟨⟨2, 1⟩, .returnValues []⟩
    let acts : List Act := [.command (.spawn "other" [] [] ⟨1, 1⟩), .command (.cancel ⟨1⟩),
      .statement stmt ⟨0⟩ .function]
    ∃ past s, Resumption.Shows (watched .standard)
        (session .standard acts (.initial .deferred .log)) past
        (.asked (.question (.execute stmt ⟨0⟩ .function)) s) ∧
      s.scheduler.Stops ⟨1⟩ ∧
      Confined past (.asked (.question (.execute stmt ⟨0⟩ .function)) s) ∧
      ∃ o t, Runs .standard (Exec.runScript .standard [stmt] ⟨0⟩) s o t ∧ ¬ o.Stopped id := by
  intro stmt acts
  let spawned : State :=
    (State.initial .deferred .log).spawn (.perform "other" [] []) ⟨1, 1⟩
  let s : State := { spawned with
    held := [⟨1⟩]
    scheduler := spawned.scheduler.cancel ⟨1⟩ }
  have confined := cancellation_confined .standard
  have shown : Resumption.Shows (watched .standard)
      (session .standard acts (.initial .deferred .log)) _
      (.asked (.question (.execute stmt ⟨0⟩ .function)) s) :=
    .after (.done _ _) (.after (.done _ _) (.asked _ _ _))
  obtain ⟨trace, o, t, run, genuine⟩ : ∃ trace o t, Resumption.Traces
      (Interpreter.bodies .standard) (Exec.runScript .standard [stmt] ⟨0⟩ s) trace o t ∧
      ∀ p ∈ trace, ¬ p.1.FeignsStop :=
    ⟨_, _, _, .ask (.ask (.done _ _) (.done _ _)) (.done _ _), by simp [Request.FeignsStop]⟩
  have ends := confined.2.2.2.runScript [stmt] ⟨0⟩ s trace o t rfl run genuine
  exact ⟨_, s, shown, ⟨_, rfl, rfl⟩, confined.1 .log acts _ _ shown, o, t, run.evaluates, ends.2⟩

end StatementEngine
