import StatementEngine.Engine.Crew
import StatementEngine.Resumption.Evaluation

/-!
# What a run does

**`Runs config x s o t`**: from the state `s` the computation `x` ends as `o` says, in the state
`t`. No steps are counted, so a run without end simply does not run to anything.

Computations are taken apart with one rule per way of building them (`runs_bind_iff`,
`runs_mapError_iff`, …), and a question runs as the body that answers it (`runs_execute_iff`, …).
`runs_iff_run` ties the relation to the loop of `Interpreter.run`.

The relation is about a computation that nobody interferes with: a host without workers in the
background (`runs_of_crew_run`), or a turn that is not interrupted (`runs_of_turn_fresh`).
-/

namespace StatementEngine

/-- The computation ends as the outcome says, in the second state. -/
def Runs (config : Config) (x : Exec ε α) (s : State) (o : Outcome ε α) (t : State) : Prop :=
  Resumption.Evaluates (Interpreter.bodies config) (x s) o t

variable {config : Config} {s t u : State} {ε δ κ α β : Type}

/-- A run has one end. -/
theorem Runs.unique {x : Exec ε α} {o p : Outcome ε α} (h : Runs config x s o t)
    (h' : Runs config x s p u) : o = p ∧ t = u :=
  Resumption.Evaluates.unique h h'

/-- Given enough steps, the loop finds exactly the end of the run. -/
theorem runs_iff_run {x : Exec ε α} {o : Outcome ε α} :
    Runs config x s o t
      ↔ ∃ n, Resumption.run (Interpreter.bodies config) n (x s) = some (o, t) :=
  Resumption.run_eq_some_iff.symm

/-- What the interpreter answers is the end of the run. -/
theorem runs_of_run {x : Exec ε α} {o : Outcome ε α}
    (h : Interpreter.run config x s = some (o, t)) : Runs config x s o t :=
  runs_iff_run.mpr ⟨_, h⟩

/-- A first turn that ends with the computation is its run. -/
theorem runs_of_turn_fresh {x : Exec ε α} {o : Outcome ε α} {m m' : Moment}
    (h : (Strand.fresh x m.state.place).turn config m = (.finished o, m')) :
    Runs config x m.state o m'.state := by
  simp only [Strand.turn, Strand.fresh, Paused.turn] at h
  generalize ended : Resumption.turn _ _ _ _ _ _ = t at h
  obtain ⟨e, u, left⟩ := t
  cases e with
  | finished a =>
    simp only [Strand.ofTurn, Prod.mk.injEq, StrandEnd.finished.injEq] at h
    obtain ⟨rfl, rfl⟩ := h
    exact runs_iff_run.mpr ⟨_, Resumption.runOn_of_turn_finished ended⟩
  | paused rest => simp [Strand.ofTurn] at h

/-- A host without workers in the background runs a computation alone. -/
theorem runs_of_crew_run {x : Exec ε α} {o : Outcome ε α} {crew crew' : Crew}
    (alone : s.scheduler.strategy.isBackground = false)
    (h : Crew.run config x crew s = some (o, crew', t)) : Runs config x s o t ∧ crew' = crew := by
  simp only [Crew.run, alone, Bool.false_eq_true, if_false, Option.map_eq_some_iff] at h
  obtain ⟨⟨p, u⟩, hrun, h⟩ := h
  simp only [Prod.mk.injEq] at h
  obtain ⟨rfl, rfl, rfl⟩ := h
  exact ⟨runs_of_run hrun, rfl⟩

/-! ## Ways of building computations -/

@[simp] theorem runs_pure_iff {a : α} {o : Outcome ε α} :
    Runs config (pure a : Exec ε α) s o t ↔ o = .ok a ∧ t = s :=
  Resumption.evaluates_done_iff

@[simp] theorem runs_raise_iff {e : ε} {o : Outcome ε α} :
    Runs config (Exec.raise e : Exec ε α) s o t ↔ o = .raised e ∧ t = s :=
  Resumption.evaluates_done_iff

@[simp] theorem runs_panic_iff {m : String} {o : Outcome ε α} :
    Runs config (Exec.panic m : Exec ε α) s o t ↔ o = .panicked m ∧ t = s :=
  Resumption.evaluates_done_iff

@[simp] theorem runs_read_iff {f : State → α} {o : Outcome ε α} :
    Runs config (Exec.read f : Exec ε α) s o t ↔ o = .ok (f s) ∧ t = s :=
  Resumption.evaluates_done_iff

@[simp] theorem runs_modify_iff {f : State → State} {o : Outcome ε Unit} :
    Runs config (Exec.modify f : Exec ε Unit) s o t ↔ o = .ok () ∧ t = f s :=
  Resumption.evaluates_done_iff

@[simp] theorem runs_modifyGet_iff {f : State → α × State} {o : Outcome ε α} :
    Runs config (Exec.modifyGet f : Exec ε α) s o t ↔ o = .ok (f s).1 ∧ t = (f s).2 :=
  Resumption.evaluates_done_iff

/-- A sequence ends with its second part, or with the first end that is not a value. -/
theorem runs_bind_iff {x : Exec ε α} {f : α → Exec ε β} {o : Outcome ε β} :
    Runs config (x >>= f) s o t ↔
      (∃ a s', Runs config x s (.ok a) s' ∧ Runs config (f a) s' o t) ∨
      (∃ e, Runs config x s (.raised e) t ∧ o = .raised e) ∨
      (∃ m, Runs config x s (.panicked m) t ∧ o = .panicked m) := by
  unfold Runs
  rw [Exec.bind_apply, Resumption.evaluates_bind_iff]
  constructor
  · intro run
    obtain ⟨p, s', hp, h⟩ := run
    cases p with
    | ok a => exact Or.inl ⟨a, s', hp, h⟩
    | raised e =>
      obtain ⟨rfl, rfl⟩ := Resumption.evaluates_done_iff.mp h
      exact Or.inr (Or.inl ⟨e, hp, rfl⟩)
    | panicked m =>
      obtain ⟨rfl, rfl⟩ := Resumption.evaluates_done_iff.mp h
      exact Or.inr (Or.inr ⟨m, hp, rfl⟩)
  · intro run
    rcases run with ⟨a, s', hp, h⟩ | ⟨e, hp, rfl⟩ | ⟨m, hp, rfl⟩
    · exact ⟨_, _, hp, h⟩
    · exact ⟨_, _, hp, .done _ _⟩
    · exact ⟨_, _, hp, .done _ _⟩

/-- A sequence ends with a value if both of its parts do. -/
theorem runs_bind_ok_iff {x : Exec ε α} {f : α → Exec ε β} {b : β} :
    Runs config (x >>= f) s (.ok b) t ↔
      ∃ a s', Runs config x s (.ok a) s' ∧ Runs config (f a) s' (.ok b) t := by
  rw [runs_bind_iff]
  constructor
  · intro run
    rcases run with h | ⟨e, -, h⟩ | ⟨m, -, h⟩
    · exact h
    · cases h
    · cases h
  · exact Or.inl

/-- A sequence ends with an error if one of its parts does. -/
theorem runs_bind_raised_iff {x : Exec ε α} {f : α → Exec ε β} {e : ε} :
    Runs config (x >>= f) s (.raised e) t ↔
      (∃ a s', Runs config x s (.ok a) s' ∧ Runs config (f a) s' (.raised e) t) ∨
      Runs config x s (.raised e) t := by
  rw [runs_bind_iff]
  constructor
  · intro run
    rcases run with h | ⟨e, h, he⟩ | ⟨m, -, h⟩
    · exact Or.inl h
    · cases he
      exact Or.inr h
    · cases h
  · intro run
    rcases run with h | h
    · exact Or.inl h
    · exact Or.inr (Or.inl ⟨e, h, rfl⟩)

/-- What follows a computation only matters for the values that it ends with. -/
theorem runs_bind_congr {x : Exec ε α} {f g : α → Exec ε β} {o : Outcome ε β}
    (h : ∀ a s', Runs config x s (.ok a) s' →
      (Runs config (f a) s' o t ↔ Runs config (g a) s' o t)) :
    Runs config (x >>= f) s o t ↔ Runs config (x >>= g) s o t := by
  rw [runs_bind_iff, runs_bind_iff]
  refine or_congr_left ?_
  constructor
  · intro run
    obtain ⟨a, s', hx, hf⟩ := run
    exact ⟨a, s', hx, (h a s' hx).1 hf⟩
  · intro run
    obtain ⟨a, s', hx, hg⟩ := run
    exact ⟨a, s', hx, (h a s' hx).2 hg⟩

theorem runs_mapError_iff {f : ε → δ} {x : Exec ε α} {o : Outcome δ α} :
    Runs config (x.mapError f) s o t ↔ ∃ p, Runs config x s p t ∧ o = p.mapError f := by
  unfold Runs Exec.mapError
  rw [Resumption.evaluates_bind_iff]
  constructor
  · intro run
    obtain ⟨p, s', hp, h⟩ := run
    obtain ⟨rfl, rfl⟩ := Resumption.evaluates_done_iff.mp h
    exact ⟨p, hp, rfl⟩
  · intro run
    obtain ⟨p, hp, rfl⟩ := run
    exact ⟨p, t, hp, .done _ _⟩

theorem runs_mapError_ok_iff {f : ε → δ} {x : Exec ε α} {a : α} :
    Runs config (x.mapError f) s (.ok a) t ↔ Runs config x s (.ok a) t := by
  rw [runs_mapError_iff]
  constructor
  · intro ⟨o, run, same⟩
    obtain rfl := Outcome.ok_eq_mapError_iff.mp same
    exact run
  · exact fun run => ⟨_, run, rfl⟩

theorem runs_ofExcept_ok_iff {lift : κ → ε} {r : Except κ α} {a : α} :
    Runs config (Exec.ofExcept lift r) s (.ok a) t ↔ r = .ok a ∧ t = s := by
  cases r with
  | ok b => exact runs_pure_iff.trans (by simp [eq_comm])
  | error k => exact runs_raise_iff.trans (by simp)

theorem runs_thenAlways_iff {f : State → State} {x : Exec ε α} {o : Outcome ε α} :
    Runs config (x.thenAlways f) s o t ↔ ∃ s', Runs config x s o s' ∧ t = f s' := by
  unfold Runs Exec.thenAlways
  rw [Resumption.evaluates_bind_iff]
  constructor
  · intro run
    obtain ⟨p, s', hp, h⟩ := run
    obtain ⟨rfl, rfl⟩ := Resumption.evaluates_done_iff.mp h
    exact ⟨s', hp, rfl⟩
  · intro run
    obtain ⟨s', hp, rfl⟩ := run
    exact ⟨o, s', hp, .done _ _⟩

/-- Computations that run alike run alike as calls. -/
theorem runs_entered_congr {limit : Option Nat} {refuse : EngineError → ε} {x y : Exec ε α}
    {o : Outcome ε α} (h : ∀ s o t, Runs config x s o t ↔ Runs config y s o t) :
    Runs config (Exec.entered limit refuse x) s o t
      ↔ Runs config (Exec.entered limit refuse y) s o t := by
  cases entry : enterCall limit s.callDepth with
  | error k => simp only [Runs, Exec.entered, entry]
  | ok depth =>
    have left : ∀ z : Exec ε α, Runs config (Exec.entered limit refuse z) s o t
        ↔ Runs config (z.thenAlways fun s => { s with callDepth := s.callDepth - 1 })
          { s with callDepth := depth } o t := by
      intro z
      simp only [Runs, Exec.entered, entry]
    simp only [left, runs_thenAlways_iff, h]

theorem runs_settle_iff {x : Exec ε α} {o : Outcome δ (Outcome ε α)} :
    Runs config (x.settle : Exec δ (Outcome ε α)) s o t ↔ ∃ p, Runs config x s p t ∧ o = .ok p := by
  unfold Runs Exec.settle
  rw [Resumption.evaluates_bind_iff]
  constructor
  · intro run
    obtain ⟨p, s', hp, h⟩ := run
    obtain ⟨rfl, rfl⟩ := Resumption.evaluates_done_iff.mp h
    exact ⟨p, hp, rfl⟩
  · intro run
    obtain ⟨p, hp, rfl⟩ := run
    exact ⟨p, t, hp, .done _ _⟩

theorem runs_failing_iff {x : Exec EngineError α} {o : Outcome Raise α} :
    Runs config (Exec.failing x) s o t ↔ ∃ p, Runs config x s p t ∧ o = p.mapError .failed :=
  runs_mapError_iff

theorem runs_failing_ok_iff {x : Exec EngineError α} {a : α} :
    Runs config (Exec.failing x) s (.ok a) t ↔ Runs config x s (.ok a) t := by
  rw [runs_failing_iff]
  constructor
  · intro run
    obtain ⟨p, hp, h⟩ := run
    cases p with
    | ok b =>
      cases h
      exact hp
    | raised e | panicked m => cases h
  · intro h
    exact ⟨_, h, rfl⟩

theorem runs_newChild_iff {parent : ScopeId} {o : Outcome ε ScopeId} :
    Runs config (Exec.newChild parent : Exec ε ScopeId) s o t
      ↔ o = .ok s.scopes.next ∧ t = (s.newChild parent).2 :=
  runs_modifyGet_iff

theorem runs_readVariable_ok_iff {scope : ScopeId} {name : Name} {v : Value} :
    Runs config (Exec.readVariable scope name) s (.ok v) t
      ↔ s.scopes.get? scope name = some v ∧ t = s := by
  unfold Runs Exec.readVariable
  cases s.scopes.get? scope name with
  | some w => exact Resumption.evaluates_done_iff.trans (by simp [eq_comm])
  | none => exact Resumption.evaluates_done_iff.trans (by simp)

theorem runs_setVariable_ok_iff {scope : ScopeId} {name : Name} {v : Value} :
    Runs config (Exec.setVariable scope name v) s (.ok ()) t
      ↔ ∃ scopes, s.scopes.set? scope name v = some scopes ∧ t = { s with scopes } := by
  rw [Runs, Exec.setVariable_apply, ScopeStore.set?_eq]
  cases s.scopes.definer? scope name with
  | some d => exact Resumption.evaluates_done_iff.trans (by simp)
  | none => exact Resumption.evaluates_done_iff.trans (by simp)

/-- A statement completes as its form does, or with what its form has thrown. -/
theorem runs_located_ok_iff {p : Position} {x : Exec Raise Completion} {c : Completion} :
    Runs config (Exec.located p x) s (.ok c) t ↔
      Runs config x s (.ok c) t ∨
      ∃ v at?, Runs config x s (.raised (.thrown v at?)) t ∧
        c = .ofSignal (.thrown v (at?.getD p)) := by
  unfold Runs Exec.located
  rw [Resumption.evaluates_bind_iff]
  constructor
  · intro run
    obtain ⟨r, s', hr, h⟩ := run
    match r with
    | .ok c' =>
      obtain ⟨h, rfl⟩ := Resumption.evaluates_done_iff.mp h
      cases h
      exact Or.inl hr
    | .raised (.thrown v at?) =>
      obtain ⟨h, rfl⟩ := Resumption.evaluates_done_iff.mp h
      cases h
      exact Or.inr ⟨v, at?, hr, rfl⟩
    | .raised (.failed e) | .panicked m => cases (Resumption.evaluates_done_iff.mp h).1
  · intro run
    rcases run with hr | ⟨v, at?, hr, rfl⟩
    · exact ⟨_, _, hr, .done _ _⟩
    · exact ⟨_, _, hr, .done _ _⟩

/-- A statement fails as its form does, at its own position if the form says none. -/
theorem runs_located_raised_iff {p : Position} {x : Exec Raise Completion} {e : EngineError} :
    Runs config (Exec.located p x) s (.raised e) t ↔
      ∃ e', Runs config x s (.raised (.failed e')) t ∧ e = e'.fillPosition p := by
  unfold Runs Exec.located
  rw [Resumption.evaluates_bind_iff]
  constructor
  · intro run
    obtain ⟨r, s', hr, h⟩ := run
    match r with
    | .raised (.failed e') =>
      obtain ⟨h, rfl⟩ := Resumption.evaluates_done_iff.mp h
      cases h
      exact ⟨e', hr, rfl⟩
    | .ok _ | .raised (.thrown ..) | .panicked _ => cases (Resumption.evaluates_done_iff.mp h).1
  · intro run
    obtain ⟨e', hr, rfl⟩ := run
    exact ⟨_, _, hr, .done _ _⟩

/-! ## Questions -/

theorem runs_evaluate_iff {e : Expr} {scope : ScopeId} {o : Outcome Raise Value} :
    Runs config (Exec.evaluate e scope) s o t ↔ Runs config (Exec.evaluateBody e scope) s o t :=
  Resumption.evaluates_ask_done_iff

theorem runs_call_iff {f : FunctionRef} {args : List Value} {o : Outcome Raise Value} :
    Runs config (Exec.call f args) s o t ↔ Runs config (Exec.callBody config f args) s o t :=
  Resumption.evaluates_ask_done_iff

theorem runs_execute_iff {stmt : Stmt} {scope : ScopeId} {cx : Context}
    {o : Outcome EngineError Completion} :
    Runs config (Exec.execute stmt scope cx) s o t
      ↔ Runs config (Exec.executeBody stmt scope cx) s o t :=
  Resumption.evaluates_ask_done_iff

theorem runs_block_iff {body : Block} {scope : ScopeId} {cx : Context}
    {o : Outcome EngineError Completion} :
    Runs config (Exec.runBlock body scope cx) s o t
      ↔ Runs config (Exec.blockBody body scope cx) s o t :=
  Resumption.evaluates_ask_done_iff

theorem runs_iterate_iff {loop : LoopHead} {o : Outcome Raise Completion} :
    Runs config (Exec.iterate loop) s o t ↔ Runs config (Exec.iterateBody loop) s o t :=
  Resumption.evaluates_ask_done_iff

@[simp] theorem runs_await_iff {what : Awaited} {o : Outcome ε Unit} :
    Runs config (Exec.await what : Exec ε Unit) s o t ↔ o = .ok () ∧ t = s := by
  unfold Runs Exec.await
  rw [Resumption.evaluates_ask_iff]
  constructor
  · intro run
    obtain ⟨_, s', answered, h⟩ := run
    obtain ⟨_, rfl⟩ := Resumption.evaluates_done_iff.mp answered
    exact Resumption.evaluates_done_iff.mp h
  · intro run
    obtain ⟨rfl, rfl⟩ := run
    exact ⟨(), _, .done _ _, .done _ _⟩

theorem runs_doWork_iff {w : Work} {o : Outcome Raise Value} :
    Runs config (Exec.doWork w) s o t ↔ Runs config (Exec.workBody w) s o t :=
  Resumption.evaluates_ask_done_iff

end StatementEngine
