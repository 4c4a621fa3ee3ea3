import StatementEngine.Proofs.Run.Alike
import StatementEngine.Proofs.SignalConfinement

/-!
# Scripts and calls have the same boundary

**A list of statements runs the same as a script and as the body of a function.** Both are entered
as calls and refused as calls, both run the list once, and they only differ in what they make of its
end (`Outcome.asScript`, `Outcome.asCall`). What they make of it says the same
(`BoundariesAgree`): the value of one is the value of the other, a throw that leaves a call is an
error of a script, and every other error is handed through by both.

The main result is `boundaries_agree`.
-/

namespace StatementEngine

/-! ## What becomes of the end of a body -/

/-- The end of a script whose statements have ended. -/
def Outcome.asScript : Outcome EngineError Completion → Outcome EngineError Execution
  | .ok ⟨value, .none⟩ => .ok ⟨value, .none⟩
  | .ok ⟨_, .returned vs⟩ => .ok ⟨some (.collapse vs), .returned vs⟩
  | .ok ⟨_, .thrown v p⟩ => .raised ((EngineError.ofKind (.uncaughtThrow v)).locate p)
  | .ok ⟨_, .breakLoop⟩ => .raised (.ofKind .breakOutsideLoop)
  | .ok ⟨_, .continueLoop⟩ => .raised (.ofKind .continueOutsideLoop)
  | .raised e => .raised e
  | .panicked m => .panicked m

/-- The end of a call whose body has ended. -/
def Outcome.asCall : Outcome EngineError Completion → Outcome Raise Value
  | .ok ⟨value, .none⟩ => .ok (value.getD .nil)
  | .ok ⟨_, .returned vs⟩ => .ok (.collapse vs)
  | .ok ⟨_, .thrown v p⟩ => .raised (.thrown v (some p))
  | .ok ⟨_, .breakLoop⟩ => .raised (.ofKind .breakOutsideLoop)
  | .ok ⟨_, .continueLoop⟩ => .raised (.ofKind .continueOutsideLoop)
  | .raised e => .raised (.failed e)
  | .panicked m => .panicked m

variable {config : Config} {body : Block} {scope : ScopeId} {s t : State}

theorem runs_scriptResult_iff {c : Completion} {o : Outcome EngineError Execution} :
    Runs config (Exec.scriptResult c) s o t ↔
      o = (Outcome.ok c : Outcome EngineError Completion).asScript ∧ t = s := by
  obtain ⟨value, signal⟩ := c
  cases signal with
  | none | returned vs => exact runs_pure_iff
  | thrown v p | breakLoop | continueLoop => exact runs_raise_iff

theorem runs_callResult_iff {c : Completion} {o : Outcome Raise Value} :
    Runs config (Exec.callResult c) s o t ↔
      o = (Outcome.ok c : Outcome EngineError Completion).asCall ∧ t = s := by
  obtain ⟨value, signal⟩ := c
  cases signal with
  | none | returned vs => exact runs_pure_iff
  | thrown v p | breakLoop | continueLoop => exact runs_raise_iff

/-- The statements of a script end, and the script makes of it what it makes. -/
theorem runs_asScript_iff {o : Outcome EngineError Execution} :
    Runs config (do let c ← Exec.runBlock body scope .function; Exec.scriptResult c) s o t ↔
      ∃ b, Runs config (Exec.runBlock body scope .function) s b t ∧ o = b.asScript := by
  rw [runs_bind_iff]
  constructor
  · intro run
    rcases run with ⟨c, s', hc, h⟩ | ⟨e, he, rfl⟩ | ⟨m, hm, rfl⟩
    · obtain ⟨rfl, rfl⟩ := runs_scriptResult_iff.mp h
      exact ⟨_, hc, rfl⟩
    · exact ⟨_, he, rfl⟩
    · exact ⟨_, hm, rfl⟩
  · intro run
    obtain ⟨b, hb, rfl⟩ := run
    cases b with
    | ok c => exact Or.inl ⟨c, t, hb, runs_scriptResult_iff.mpr ⟨rfl, rfl⟩⟩
    | raised e => exact Or.inr (Or.inl ⟨e, hb, rfl⟩)
    | panicked m => exact Or.inr (Or.inr ⟨m, hb, rfl⟩)

/-- The body of a call ends, and the call makes of it what it makes. -/
theorem runs_asCall_iff {o : Outcome Raise Value} :
    Runs config (do
      let c ← Exec.failing (Exec.runBlock body scope .function)
      Exec.callResult c) s o t ↔
      ∃ b, Runs config (Exec.runBlock body scope .function) s b t ∧ o = b.asCall := by
  rw [runs_bind_iff]
  constructor
  · intro run
    rcases run with ⟨c, s', hc, h⟩ | ⟨r, hr, rfl⟩ | ⟨m, hm, rfl⟩
    · obtain ⟨rfl, rfl⟩ := runs_callResult_iff.mp h
      exact ⟨_, runs_failing_ok_iff.mp hc, rfl⟩
    · obtain ⟨b, hb, hr⟩ := runs_failing_iff.mp hr
      cases b with
      | raised e =>
          cases hr
          exact ⟨_, hb, rfl⟩
      | ok _ | panicked _ => cases hr
    · obtain ⟨b, hb, hm⟩ := runs_failing_iff.mp hm
      cases b with
      | panicked _ =>
          cases hm
          exact ⟨_, hb, rfl⟩
      | ok _ | raised _ => cases hm
  · intro run
    obtain ⟨b, hb, rfl⟩ := run
    cases b with
    | ok c =>
        exact Or.inl ⟨c, t, runs_failing_ok_iff.mpr hb, runs_callResult_iff.mpr ⟨rfl, rfl⟩⟩
    | raised e => exact Or.inr (Or.inl ⟨_, runs_failing_iff.mpr ⟨_, hb, rfl⟩, rfl⟩)
    | panicked m => exact Or.inr (Or.inr ⟨m, runs_failing_iff.mpr ⟨_, hb, rfl⟩, rfl⟩)

/-- A boundary that makes something of the end of a body is refused, or the body runs with one more
call entered. -/
theorem runs_enteredBody_iff {ε α : Type} {limit : Option Nat} {refuse : EngineError → ε}
    {x : Exec ε α} {made : Outcome EngineError Completion → Outcome ε α} {o : Outcome ε α}
    (ends : ∀ s o t, Runs config x s o t ↔
      ∃ b, Runs config (Exec.runBlock body scope .function) s b t ∧ o = made b) :
    Runs config (Exec.entered limit refuse x) s o t ↔
      (∃ max, limit = some max ∧ max ≤ s.callDepth ∧
        o = .raised (refuse (.ofKind (.recursionLimit max))) ∧ t = s) ∨
      ((∀ max ∈ limit, s.callDepth < max) ∧
        ∃ b u, Runs config (Exec.runBlock body scope .function)
            { s with callDepth := s.callDepth + 1 } b u ∧
          o = made b ∧ t = { u with callDepth := u.callDepth - 1 }) := by
  refine runs_entered_iff.trans (or_congr_right (and_congr_right fun _ => ?_))
  simp only [ends]
  constructor
  · intro run
    obtain ⟨u, ⟨b, hb, ho⟩, ht⟩ := run
    exact ⟨b, u, hb, ho, ht⟩
  · intro run
    obtain ⟨b, u, hb, ho, ht⟩ := run
    exact ⟨u, ⟨b, hb, ho⟩, ht⟩

/-- A script is refused, or its statements run with one more call entered. -/
theorem runs_runScript_iff {o : Outcome EngineError Execution} :
    Runs config (Exec.runScript config body scope) s o t ↔
      (∃ max, config.maxCallDepth = some max ∧ max ≤ s.callDepth ∧
        o = .raised (.ofKind (.recursionLimit max)) ∧ t = s) ∨
      ((∀ max ∈ config.maxCallDepth, s.callDepth < max) ∧
        ∃ b u, Runs config (Exec.runBlock body scope .function)
            { s with callDepth := s.callDepth + 1 } b u ∧
          o = b.asScript ∧ t = { u with callDepth := u.callDepth - 1 }) :=
  runs_enteredBody_iff fun _ _ _ => runs_asScript_iff

/-- A call is refused, or its body runs with one more call entered. -/
theorem runs_callBlock_iff {o : Outcome Raise Value} :
    Runs config (Exec.callBlock config body scope) s o t ↔
      (∃ max, config.maxCallDepth = some max ∧ max ≤ s.callDepth ∧
        o = .raised (.ofKind (.recursionLimit max)) ∧ t = s) ∨
      ((∀ max ∈ config.maxCallDepth, s.callDepth < max) ∧
        ∃ b u, Runs config (Exec.runBlock body scope .function)
            { s with callDepth := s.callDepth + 1 } b u ∧
          o = b.asCall ∧ t = { u with callDepth := u.callDepth - 1 }) :=
  runs_enteredBody_iff fun _ _ _ => runs_asCall_iff

/-! ## What both say -/

/-- The end of a script and the end of a call say the same.

* The script ends normally or with a return, and has the value of the call; `nil` stands for none.
* A throw that leaves the call is an error of the script, at the place of the throw. An error of
  that kind from further inside is handed through by both.
* Every other error is the same on both sides, its position included. -/
structure BoundariesAgree (script : Outcome EngineError Execution) (call : Outcome Raise Value) :
    Prop where
  value : ∀ v, (∃ x : Execution, script = .ok x ∧ x.Handed ∧ x.value.getD .nil = v) ↔ call = .ok v
  uncaught : ∀ v p, script = .raised ⟨.uncaughtThrow v, some p⟩ ↔
    call = .raised (.thrown v (some p)) ∨ call = .raised (.failed ⟨.uncaughtThrow v, some p⟩)
  error : ∀ e : EngineError, (∀ v p, e ≠ ⟨.uncaughtThrow v, some p⟩) →
    (script = .raised e ↔ call = .raised (.failed e))
  panic : ∀ m, script = .panicked m ↔ call = .panicked m

theorem agree_of_value (x : Execution) (handed : x.Handed) :
    BoundariesAgree (.ok x) (.ok (x.value.getD .nil)) where
  value v := by
    constructor
    · intro h
      obtain ⟨_, h, -, rfl⟩ := h
      cases h
      rfl
    · intro h
      cases h
      exact ⟨x, rfl, handed, rfl⟩
  uncaught v p := by simp
  error e _ := by simp
  panic m := by simp

theorem agree_of_thrown (v : Value) (p : Position) :
    BoundariesAgree (.raised ⟨.uncaughtThrow v, some p⟩) (.raised (.thrown v (some p))) where
  value w := by simp
  uncaught w q := by simp
  error e other := by
    constructor
    · intro h
      cases h
      exact absurd rfl (other v p)
    · intro h
      cases h
  panic m := by simp

theorem agree_of_error (e : EngineError) :
    BoundariesAgree (.raised e) (.raised (.failed e)) where
  value v := by simp
  uncaught v p := by simp
  error e' _ := by simp
  panic m := by simp

theorem agree_of_panic (m : String) : BoundariesAgree (.panicked m) (.panicked m) where
  value v := by simp
  uncaught v p := by simp
  error e _ := by simp
  panic m' := by simp

/-- However the statements end, what a script and a call make of it agrees. -/
theorem Outcome.boundariesAgree (b : Outcome EngineError Completion) :
    BoundariesAgree b.asScript b.asCall := by
  match b with
  | .ok ⟨value, .none⟩ => exact agree_of_value ⟨value, .none⟩ (Or.inl rfl)
  | .ok ⟨_, .returned vs⟩ =>
      exact agree_of_value ⟨some (.collapse vs), .returned vs⟩ (Or.inr ⟨vs, rfl⟩)
  | .ok ⟨_, .thrown v p⟩ => exact agree_of_thrown v p
  | .ok ⟨_, .breakLoop⟩ | .ok ⟨_, .continueLoop⟩ => exact agree_of_error _
  | .raised e => exact agree_of_error e
  | .panicked m => exact agree_of_panic m

variable {o : Outcome EngineError Execution} {o' : Outcome Raise Value}

/-- Where the list has run as a script, it runs as a call. -/
theorem runs_callBlock_of_runScript (h : Runs config (Exec.runScript config body scope) s o t) :
    ∃ o', Runs config (Exec.callBlock config body scope) s o' t ∧ BoundariesAgree o o' := by
  rcases runs_runScript_iff.mp h with ⟨max, hmax, reached, rfl, rfl⟩ | ⟨below, b, u, hb, rfl, rfl⟩
  · exact ⟨_, runs_callBlock_iff.mpr (Or.inl ⟨max, hmax, reached, rfl, rfl⟩), agree_of_error _⟩
  · exact ⟨_, runs_callBlock_iff.mpr (Or.inr ⟨below, b, u, hb, rfl, rfl⟩), b.boundariesAgree⟩

/-- Where the list has run as a call, it runs as a script. -/
theorem runs_runScript_of_callBlock (h : Runs config (Exec.callBlock config body scope) s o' t) :
    ∃ o, Runs config (Exec.runScript config body scope) s o t ∧ BoundariesAgree o o' := by
  rcases runs_callBlock_iff.mp h with ⟨max, hmax, reached, rfl, rfl⟩ | ⟨below, b, u, hb, rfl, rfl⟩
  · exact ⟨_, runs_runScript_iff.mpr (Or.inl ⟨max, hmax, reached, rfl, rfl⟩), agree_of_error _⟩
  · exact ⟨_, runs_runScript_iff.mpr (Or.inr ⟨below, b, u, hb, rfl, rfl⟩), b.boundariesAgree⟩

/-- **The two call boundaries agree.** From every state, at every call depth and under every limit,
a list of statements that ends as a script ends as the body of a function, and the other way round;
the state is the same, and the ends agree. Neither boundary ever has to deal with a `break` or a
`continue` of the list. -/
theorem boundaries_agree (config : Config) (body : Block) (scope : ScopeId) (s : State) :
    (∀ o t, Runs config (Exec.runScript config body scope) s o t →
      ∃ o', Runs config (Exec.callBlock config body scope) s o' t ∧ BoundariesAgree o o') ∧
    (∀ o' t, Runs config (Exec.callBlock config body scope) s o' t →
      ∃ o, Runs config (Exec.runScript config body scope) s o t ∧ BoundariesAgree o o') ∧
    ∀ c t, Runs config (Exec.runBlock body scope .function) s (.ok c) t → ¬ c.signal.OfLoops :=
  ⟨fun _ _ => runs_callBlock_of_runScript, fun _ _ => runs_runScript_of_callBlock,
    fun _ _ h => Context.not_ofLoops (lets_of_runs_block h) rfl⟩

/-- A list that throws is an error as a script and a throw as a call, at the same place and in the
same state. -/
theorem boundaries_agree_throw :
    let p : Position := ⟨3, 5⟩
    let body : Block := [⟨⟨1, 1⟩, .var ["x"] []⟩, ⟨p, .throwValue (.literal (.int 7))⟩]
    let s := (State.initial .deferred .log).newRoot
    ∃ t, Runs .standard (Exec.runScript .standard body s.1) s.2
        (.raised ⟨.uncaughtThrow (.int 7), some p⟩) t ∧
      ∃ o', Runs .standard (Exec.callBlock .standard body s.1) s.2 o' t ∧
        (o' = .raised (.thrown (.int 7) (some p)) ∨
          o' = .raised (.failed ⟨.uncaughtThrow (.int 7), some p⟩)) := by
  intro p body s
  obtain ⟨t, run⟩ : ∃ t, Runs .standard (Exec.runScript .standard body s.1) s.2
      (.raised ⟨.uncaughtThrow (.int 7), some p⟩) t := ⟨_, runs_iff_run.mpr ⟨30, rfl⟩⟩
  obtain ⟨o', call, agree⟩ := (boundaries_agree .standard body s.1 s.2).1 _ t run
  exact ⟨t, run, o', call, (agree.uncaught _ _).mp rfl⟩

end StatementEngine
