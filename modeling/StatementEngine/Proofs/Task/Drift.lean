import StatementEngine.Proofs.Run.Compositional

/-!
# What happens to tasks by the way

**Everybody may ask tasks to stop**, and outside of the queue nothing else is done to the tasks that
there are (`State.Drifts`). So in every body but those of the queue tasks only drift from one
question to the next (`Exec.Calm`), and no task is put to work (`Exec.compositional_calm`). Those
that spawn a task are told apart: they do so once, at their end (`proceeds_runSpawn`).
-/

namespace StatementEngine

/-- Tasks may have been asked to stop, and nothing else has happened to them. -/
structure State.Drifts (s t : State) : Prop where
  scheduler : ∃ tasks : List TaskId, t.scheduler = tasks.foldl Scheduler.cancel s.scheduler
  sink : t.sink = s.sink
  running : t.running = s.running

variable {s t u : State} {α β ε : Type}

theorem State.Drifts.refl (s : State) : s.Drifts s := ⟨⟨[], rfl⟩, rfl, rfl⟩

theorem State.Drifts.trans (h : s.Drifts t) (h' : t.Drifts u) : s.Drifts u where
  scheduler := by
    obtain ⟨tasks, ht⟩ := h.scheduler
    obtain ⟨tasks', hu⟩ := h'.scheduler
    refine ⟨tasks ++ tasks', ?_⟩
    rw [hu, ht, List.foldl_append]
  sink := h'.sink.trans h.sink
  running := h'.running.trans h.running

theorem State.Step.drifts (step : s.Step t) : s.Drifts t := by
  cases step with
  | scopes | closures | modules | recorded | held | log => exact ⟨⟨[], rfl⟩, rfl, rfl⟩
  | cancel t => exact ⟨⟨[t], rfl⟩, rfl, rfl⟩
  | cancelAll => exact ⟨⟨s.scheduler.table, rfl⟩, rfl, rfl⟩

/-- The question is the work of a task. -/
def Request.IsWork : Request → Prop
  | .work _ => True
  | _ => False

/-- The question is a statement that spawns a task. -/
def Request.IsSpawn : Request → Prop
  | .execute stmt _ _ => ∃ e, stmt.form = .spawn e
  | _ => False

/-- From the state on tasks only drift until the next question, and again after each question; no
task is put to work; and `ends` says how it ends in the state to which tasks have drifted. -/
def Proceeds (ends : State → α → State → Prop) (s : State) : Asking α → Prop
  | .done a t => ∃ u, s.Drifts u ∧ ends u a t
  | .ask q t resume => s.Drifts t ∧ ¬ q.IsWork ∧ ∀ a u, Proceeds ends u (resume a u)

/-- It ends in that state itself. -/
abbrev Calmly : State → α → State → Prop := fun u _ t => t = u

variable {ends : State → α → State → Prop} {ends' : State → β → State → Prop}

theorem Proceeds.after_drift {r : Asking α} (h : Proceeds ends t r) (drift : s.Drifts t) :
    Proceeds ends s r := by
  cases r with
  | done a u =>
      obtain ⟨v, later, ended⟩ := h
      exact ⟨v, drift.trans later, ended⟩
  | ask q u resume => exact ⟨drift.trans h.1, h.2⟩

/-- Nothing is asked. -/
theorem proceeds_done {a : α} (drift : s.Drifts t) : Proceeds Calmly s (.done a t) :=
  ⟨t, drift, rfl⟩

/-- A question that is asked at once, and whose answer is the end. -/
theorem proceeds_ask {q : Request} (idle : ¬ q.IsWork) (result : Answer q → α) :
    Proceeds Calmly s (.ask q s fun a t => .done (result a) t) :=
  ⟨.refl s, idle, fun _ t => proceeds_done (.refl t)⟩

/-- What comes after a calm computation goes on from its end. -/
theorem proceeds_bind {r : Asking α} {next : α → State → Asking β} (hr : Proceeds Calmly s r)
    (hnext : ∀ a t, Proceeds ends' t (next a t)) : Proceeds ends' s (r.bind next) := by
  induction r generalizing s with
  | done a t =>
      obtain ⟨_, drift, rfl⟩ := hr
      exact (hnext a t).after_drift drift
  | ask q t resume ih => exact ⟨hr.1, hr.2.1, fun a u => ih a u (hr.2.2 a u)⟩

/-- The result of a computation is changed, and not its state. -/
theorem Proceeds.map {r : Asking α} {f : α → β} (h : Proceeds ends s r)
    (le : ∀ u a t, ends u a t → ends' u (f a) t) :
    Proceeds ends' s (r.bind fun a t => .done (f a) t) := by
  induction r generalizing s with
  | done a t =>
      obtain ⟨u, drift, ended⟩ := h
      exact ⟨u, drift, le u a t ended⟩
  | ask q t resume ih => exact ⟨h.1, h.2.1, fun a u => ih a u (h.2.2 a u)⟩

namespace Exec

/-- Between the questions of the computation tasks only drift. -/
def Calm (x : Exec ε α) : Prop := ∀ s, Proceeds Calmly s (x s)

theorem Small.calm {x : Exec ε α} (h : Small x) : Calm x := by
  intro s
  obtain ⟨o, t, hx, same⟩ := h s
  rw [hx]
  rcases same with rfl | step
  · exact proceeds_done (.refl t)
  · exact proceeds_done step.drifts

/-- A calm computation and then something that ends in its own way. -/
theorem proceeds_exec_bind {x : Exec ε α} {f : α → Exec ε β}
    {ends : State → Outcome ε β → State → Prop} (hx : Calm x)
    (hf : ∀ a s, Proceeds ends s (f a s)) (raised : ∀ e s, ends s (.raised e) s)
    (panicked : ∀ m s, ends s (.panicked m) s) (s : State) : Proceeds ends s ((x >>= f) s) := by
  refine proceeds_bind (hx s) fun o t => ?_
  cases o with
  | ok a => exact hf a t
  | raised e => exact ⟨t, .refl t, raised e t⟩
  | panicked m => exact ⟨t, .refl t, panicked m t⟩

theorem calm_bind {x : Exec ε α} {f : α → Exec ε β} (hx : Calm x) (hf : ∀ a, Calm (f a)) :
    Calm (x >>= f) :=
  proceeds_exec_bind hx hf (fun _ _ => rfl) fun _ _ => rfl

theorem calm_mapError {δ : Type} {x : Exec ε α} (hx : Calm x) (f : ε → δ) :
    Calm (x.mapError f) :=
  fun s => (hx s).map fun _ _ _ ended => ended

theorem calm_located {x : Exec Raise Completion} (hx : Calm x) (p : Position) :
    Calm (located p x) :=
  fun s => (hx s).map fun _ _ _ ended => ended

/-- Calls that are entered and left are no business of tasks. -/
theorem calm_entered {limit : Option Nat} {fail : EngineError → ε} {x : Exec ε α} (hx : Calm x) :
    Calm (entered limit fail x) := by
  intro s
  unfold entered
  split
  · exact proceeds_done (.refl s)
  · refine proceeds_bind ((hx _).after_drift ⟨⟨[], rfl⟩, rfl, rfl⟩) fun _ t => ?_
    exact proceeds_done ⟨⟨[], rfl⟩, rfl, rfl⟩

theorem calm_runPending : Calm (runPending : Exec ε Nat) := by
  intro s
  unfold runPending
  split
  · exact proceeds_done (.refl s)
  · exact proceeds_ask id _

theorem calm_waitFor (what : Awaited) : Calm (waitFor what : Exec ε Unit) := by
  refine calm_bind (small_read _).calm fun background => ?_
  split
  · exact fun s => proceeds_ask id _
  · exact (small_pure _).calm

/-- Tasks only drift in all bodies that are not about the queue and do not spawn. -/
theorem compositional_calm : Compositional fun _ x => x.Calm where
  small := Small.calm
  bind := calm_bind
  failing hx := calm_mapError hx _
  fillPosition hx _ := calm_mapError hx _
  located := calm_located
  entered := calm_entered
  evaluate _ _ _ := proceeds_ask id id
  call _ _ _ := proceeds_ask id id
  execute _ _ _ _ := proceeds_ask id id
  runBlock _ _ _ _ := proceeds_ask id id
  iterate _ _ := proceeds_ask id id
  runPending := calm_runPending

/-- A statement that spawns ends normally and with one more task, or it has failed and adds none. -/
def Spawns (p : Position) (u : State) (o : Outcome EngineError Completion) (t : State) : Prop :=
  (o = .ok .empty ∧ ∃ work, t = u.spawn work p) ∨ (t = u ∧ ∀ c, o = .ok c → c.isNormal = false)

/-- A failure of the evaluation stays a failure or becomes a throw. -/
theorem Spawns.failed (p : Position) (r : Raise) (u : State) :
    Spawns p u ((Outcome.raised r).located p) u := by
  refine Or.inr ⟨rfl, fun c hc => ?_⟩
  cases r with
  | thrown v at? =>
      cases hc
      rfl
  | failed e => cases hc

theorem Spawns.panicked (p : Position) (m : String) (u : State) : Spawns p u (.panicked m) u :=
  Or.inr ⟨rfl, fun c hc => by cases hc⟩

/-- A spawn statement spawns at its end, if its call has been evaluated. -/
theorem proceeds_runSpawn (p : Position) (e : Expr) (scope : ScopeId) (s : State) :
    Proceeds (Spawns p) s (located p (runSpawn p e scope) s) := by
  unfold located
  cases e with
  | call callee args =>
      have evaluated : Proceeds (fun u o t => Spawns p u (o.located p) t) s
          (runSpawn p (.call callee args) scope s) := by
        refine proceeds_exec_bind (compositional_calm.evaluateCall scope callee args) ?_
          (Spawns.failed p) (Spawns.panicked p) s
        exact fun fvs t => ⟨t, .refl t, Or.inl ⟨rfl, .call fvs.1 fvs.2, rfl⟩⟩
      exact evaluated.map fun _ _ _ ended => ended
  | _ => exact ⟨s, .refl s, Spawns.failed p _ s⟩

end Exec

end StatementEngine
