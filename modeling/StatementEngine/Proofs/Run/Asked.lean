import StatementEngine.Engine.Runs
import StatementEngine.Proofs.Run.Trace

/-!
# What a run asks

**`Asks config x s asked o t`**: from the state `s` the computation `x` asks the questions `asked`,
each with the state that it is asked in and followed by the questions of its answer, and ends as `o`
says, in the state `t`. It is `Runs` with the trace of the run, and has the same rules.
-/

namespace StatementEngine

/-- Questions and the states in which they are asked, in order. -/
abbrev Questions : Type := List (Request × State)

/-- The computation asks the questions and ends as the outcome says, in the second state. -/
def Asks (config : Config) (x : Exec ε α) (s : State) (asked : Questions) (o : Outcome ε α)
    (t : State) : Prop :=
  Resumption.Traces (Interpreter.bodies config) (x s) asked o t

variable {config : Config} {s t u : State} {ε δ α β : Type} {asked asked' : Questions}

theorem Asks.runs {x : Exec ε α} {o : Outcome ε α} (h : Asks config x s asked o t) :
    Runs config x s o t :=
  h.evaluates

theorem Runs.asks {x : Exec ε α} {o : Outcome ε α} (h : Runs config x s o t) :
    ∃ asked, Asks config x s asked o t :=
  Resumption.Evaluates.traces h

theorem Asks.unique {x : Exec ε α} {o p : Outcome ε α} (h : Asks config x s asked o t)
    (h' : Asks config x s asked' p u) : asked = asked' ∧ o = p ∧ t = u :=
  Resumption.Traces.unique h h'

@[simp] theorem asks_pure_iff {a : α} {o : Outcome ε α} :
    Asks config (pure a : Exec ε α) s asked o t ↔ asked = [] ∧ o = .ok a ∧ t = s :=
  Resumption.traces_done_iff

/-- A sequence asks what its second part asks after its first, or what its first part asks if that
ends without a value. -/
theorem asks_bind_iff {x : Exec ε α} {f : α → Exec ε β} {o : Outcome ε β} :
    Asks config (x >>= f) s asked o t ↔
      (∃ a s' first rest, Asks config x s first (.ok a) s' ∧ Asks config (f a) s' rest o t ∧
        asked = first ++ rest) ∨
      (∃ e, Asks config x s asked (.raised e) t ∧ o = .raised e) ∨
      (∃ m, Asks config x s asked (.panicked m) t ∧ o = .panicked m) := by
  unfold Asks
  rw [Exec.bind_apply, Resumption.traces_bind_iff]
  constructor
  · intro run
    obtain ⟨p, s', first, rest, hp, h, rfl⟩ := run
    cases p with
    | ok a => exact Or.inl ⟨a, s', first, rest, hp, h, rfl⟩
    | raised e =>
        obtain ⟨rfl, rfl, rfl⟩ := Resumption.traces_done_iff.mp h
        exact Or.inr (Or.inl ⟨e, by simpa using hp, rfl⟩)
    | panicked m =>
        obtain ⟨rfl, rfl, rfl⟩ := Resumption.traces_done_iff.mp h
        exact Or.inr (Or.inr ⟨m, by simpa using hp, rfl⟩)
  · intro run
    rcases run with ⟨a, s', first, rest, hp, h, rfl⟩ | ⟨e, hp, rfl⟩ | ⟨m, hp, rfl⟩
    · exact ⟨_, _, _, _, hp, h, rfl⟩
    · exact ⟨_, _, _, [], hp, .done _ _, by simp⟩
    · exact ⟨_, _, _, [], hp, .done _ _, by simp⟩

theorem asks_mapError_iff {f : ε → δ} {x : Exec ε α} {o : Outcome δ α} :
    Asks config (x.mapError f) s asked o t
      ↔ ∃ p, Asks config x s asked p t ∧ o = p.mapError f := by
  unfold Asks Exec.mapError
  rw [Resumption.traces_bind_iff]
  constructor
  · intro run
    obtain ⟨p, s', first, rest, hp, h, rfl⟩ := run
    obtain ⟨rfl, rfl, rfl⟩ := Resumption.traces_done_iff.mp h
    exact ⟨p, by simpa using hp, rfl⟩
  · intro run
    obtain ⟨p, hp, rfl⟩ := run
    exact ⟨p, t, asked, [], hp, .done _ _, by simp⟩

/-- What is done at once asks nothing. -/
theorem asks_of_done {x : Exec ε α} {o p : Outcome ε α} (h : x s = .done p u) :
    Asks config x s asked o t ↔ asked = [] ∧ o = p ∧ t = u := by
  unfold Asks
  rw [h]
  exact Resumption.traces_done_iff

/-- After its first part a sequence asks what its second part asks. -/
theorem asks_bind_of_ok {x : Exec ε α} {f : α → Exec ε β} {o : Outcome ε β} {a : α}
    {first : Questions} (h : Asks config x s first (.ok a) u) :
    Asks config (x >>= f) s asked o t
      ↔ ∃ rest, Asks config (f a) u rest o t ∧ asked = first ++ rest := by
  rw [asks_bind_iff]
  constructor
  · intro run
    rcases run with ⟨b, s', first', rest, hx, hf, rfl⟩ | ⟨e, hx, -⟩ | ⟨m, hx, -⟩
    · obtain ⟨rfl, ha, rfl⟩ := h.unique hx
      cases ha
      exact ⟨rest, hf, rfl⟩
    · cases (h.unique hx).2.1
    · cases (h.unique hx).2.1
  · intro run
    obtain ⟨rest, hf, rfl⟩ := run
    exact Or.inl ⟨a, u, first, rest, h, hf, rfl⟩

/-- A statement asks what its form asks. -/
theorem asks_located_iff {p : Position} {x : Exec Raise Completion}
    {o : Outcome EngineError Completion} :
    Asks config (Exec.located p x) s asked o t
      ↔ ∃ q, Asks config x s asked q t ∧ o = q.located p := by
  unfold Asks Exec.located
  rw [Resumption.traces_bind_iff]
  constructor
  · intro run
    obtain ⟨q, s', first, rest, hq, h, rfl⟩ := run
    obtain ⟨rfl, rfl, rfl⟩ := Resumption.traces_done_iff.mp h
    exact ⟨q, by simpa using hq, rfl⟩
  · intro run
    obtain ⟨q, hq, rfl⟩ := run
    exact ⟨q, t, asked, [], hq, .done _ _, by simp⟩

/-- A statement ends as its form does. -/
theorem runs_located_iff {p : Position} {x : Exec Raise Completion}
    {o : Outcome EngineError Completion} :
    Runs config (Exec.located p x) s o t ↔ ∃ q, Runs config x s q t ∧ o = q.located p := by
  constructor
  · intro run
    obtain ⟨asked, run⟩ := run.asks
    obtain ⟨q, hq, rfl⟩ := asks_located_iff.mp run
    exact ⟨q, hq.runs, rfl⟩
  · intro run
    obtain ⟨q, hq, rfl⟩ := run
    obtain ⟨asked, hq⟩ := hq.asks
    exact (asks_located_iff.mpr ⟨q, hq, rfl⟩).runs

/-- The errors of a statement whose form can only fail have positions. -/
theorem asks_located_failing_iff {p : Position} {x : Exec EngineError Completion}
    {o : Outcome EngineError Completion} :
    Asks config (Exec.located p (Exec.failing x)) s asked o t
      ↔ ∃ q, Asks config x s asked q t ∧ o = q.mapError (·.fillPosition p) := by
  have same : ∀ q : Outcome EngineError Completion,
      (q.mapError Raise.failed).located p = q.mapError (·.fillPosition p) := by
    intro q
    cases q
    all_goals rfl
  rw [asks_located_iff, Exec.failing]
  simp only [asks_mapError_iff]
  constructor
  · intro run
    obtain ⟨_, ⟨q, hq, rfl⟩, rfl⟩ := run
    exact ⟨q, hq, same q⟩
  · intro run
    obtain ⟨q, hq, rfl⟩ := run
    exact ⟨_, ⟨q, hq, rfl⟩, (same q).symm⟩

/-! ## Questions -/

theorem asks_execute_iff {stmt : Stmt} {scope : ScopeId} {cx : Context}
    {o : Outcome EngineError Completion} :
    Asks config (Exec.execute stmt scope cx) s asked o t ↔
      ∃ inner, Asks config (Exec.executeBody stmt scope cx) s inner o t ∧
        asked = (.execute stmt scope cx, s) :: inner :=
  Resumption.traces_ask_done_iff

theorem asks_block_iff {body : Block} {scope : ScopeId} {cx : Context}
    {o : Outcome EngineError Completion} :
    Asks config (Exec.runBlock body scope cx) s asked o t ↔
      ∃ inner, Asks config (Exec.blockBody body scope cx) s inner o t ∧
        asked = (.block body scope cx, s) :: inner :=
  Resumption.traces_ask_done_iff

theorem asks_iterate_iff {loop : LoopHead} {o : Outcome Raise Completion} :
    Asks config (Exec.iterate loop) s asked o t ↔
      ∃ inner, Asks config (Exec.iterateBody loop) s inner o t ∧
        asked = (.iterate loop, s) :: inner :=
  Resumption.traces_ask_done_iff

/-- A block in a new scope is a block in the next scope. -/
theorem asks_runChild_iff {body : Block} {scope : ScopeId} {cx : Context}
    {o : Outcome EngineError Completion} :
    Asks config (Exec.runChild body scope cx) s asked o t ↔
      ∃ inner, Asks config (Exec.blockBody body (s.newChild scope).1 cx) (s.newChild scope).2
          inner o t ∧
        asked = (.block body (s.newChild scope).1 cx, (s.newChild scope).2) :: inner :=
  asks_block_iff (s := (s.newChild scope).2)

/-! ## Expressions -/

section Expressions
variable {scope : ScopeId}

theorem asks_evaluate_iff {e : Expr} {o : Outcome Raise Value} :
    Asks config (Exec.evaluate e scope) s asked o t ↔
      ∃ inner, Asks config (Exec.evaluateBody e scope) s inner o t ∧
        asked = (.evaluate e scope, s) :: inner :=
  Resumption.traces_ask_done_iff

theorem asks_literal {v : Value} : Asks config (Exec.evaluate (.literal v) scope) s
    [(.evaluate (.literal v) scope, s)] (.ok v) s :=
  asks_evaluate_iff.mpr ⟨[], asks_pure_iff.mpr ⟨rfl, rfl, rfl⟩, rfl⟩

theorem asks_variable {x : Name} {v : Value} (known : s.scopes.get? scope x = some v) :
    Asks config (Exec.evaluate (.variable x) scope) s [(.evaluate (.variable x) scope, s)]
      (.ok v) s := by
  refine asks_evaluate_iff.mpr ⟨[], asks_mapError_iff.mpr ⟨.ok v, ?_, rfl⟩, rfl⟩
  exact (asks_of_done (by rw [Exec.readVariable, known])).mpr ⟨rfl, rfl, rfl⟩

/-- An operator asks for its operands, from left to right. -/
theorem asks_binary {op : BinaryOp} {left right : Expr} {l r v : Value} {first second : Questions}
    (hl : Asks config (Exec.evaluate left scope) s first (.ok l) u)
    (hr : Asks config (Exec.evaluate right scope) u second (.ok r) t)
    (applied : op.apply l r = .ok v) :
    Asks config (Exec.evaluate (.binary op left right) scope) s
      ((.evaluate (.binary op left right) scope, s) :: (first ++ second)) (.ok v) t := by
  refine asks_evaluate_iff.mpr ⟨_, (asks_bind_of_ok hl).mpr ⟨second, ?_, rfl⟩, rfl⟩
  refine (asks_bind_of_ok hr).mpr ⟨[], ?_, by simp⟩
  rw [applied]
  exact asks_pure_iff.mpr ⟨rfl, rfl, rfl⟩

end Expressions

end StatementEngine
