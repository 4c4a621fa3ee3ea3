import StatementEngine.Proofs.Run.Compositional
import StatementEngine.Proofs.Run.Trace

/-!
# Failures pass through

**A failure of a part is the failure of the whole.** A computation is strict (`Strict`) if it ends
as soon as one of its questions is answered with a failure: it asks nothing more, ends with that
error, and leaves the state as it is, except that calls are left on the way and the call depth goes
back (`State.SameButDepth`).

Everything that an engine does with an error on its way is to fill in a position, and to turn the
failure of a block into the failure of an expression and back (`Exec.Passes`). So the error comes
out with its cause, and with its position if it has one (`EngineError.Onward`). Tasks are different:
their failures are reported and do not pass, so the questions of the queue are closed
(`Request.Open`).
-/

namespace StatementEngine

/-- The questions whose failures pass through whatever asks them. -/
def Request.Open : Request → Prop
  | .evaluate .. | .call .. | .execute .. | .block .. | .iterate _ => True
  | .work _ | .drain _ | .await _ => False

/-- The answer says that answering has failed with an error. -/
def Answer.Fails : (q : Request) → EngineError → Answer q → Prop
  | .evaluate .., e, o => o = .raised (.failed e)
  | .call .., e, o => o = .raised (.failed e)
  | .execute .., e, o => o = .raised e
  | .block .., e, o => o = .raised e
  | .iterate _, e, o => o = .raised (.failed e)
  | .work _, _, _ => False
  | .drain _, _, _ => False
  | .await _, _, _ => False

/-- The states are the same, the call depth aside. -/
def State.SameButDepth (s t : State) : Prop := t = { s with callDepth := t.callDepth }

theorem State.SameButDepth.refl (s : State) : s.SameButDepth s := rfl

theorem State.SameButDepth.trans {s t u : State} (h : s.SameButDepth t) (h' : t.SameButDepth u) :
    s.SameButDepth u := by
  unfold SameButDepth at h h' ⊢
  rw [h', h]

/-- The second error is the first one on its way out: it may have been given a position where it
had none. -/
def EngineError.Onward (e e' : EngineError) : Prop := e' = e ∨ ∃ p, e' = e.fillPosition p

namespace EngineError

theorem fillPosition_of_isSome {e : EngineError} (h : e.position.isSome) (p : Position) :
    e.fillPosition p = e := by
  obtain ⟨kind, position⟩ := e
  cases position with
  | none => cases h
  | some q => rfl

theorem Onward.refl (e : EngineError) : e.Onward e := Or.inl rfl

theorem Onward.fillPosition (e : EngineError) (p : Position) : e.Onward (e.fillPosition p) :=
  Or.inr ⟨p, rfl⟩

theorem Onward.trans {e e' e'' : EngineError} (h : e.Onward e') (h' : e'.Onward e'') :
    e.Onward e'' := by
  rcases h with rfl | ⟨p, rfl⟩
  · exact h'
  · rcases h' with rfl | ⟨q, rfl⟩
    · exact .fillPosition e p
    · rw [fillPosition_of_isSome (by simp)]
      exact .fillPosition e p

theorem Onward.kind {e e' : EngineError} (h : e.Onward e') : e'.kind = e.kind := by
  rcases h with rfl | ⟨p, rfl⟩
  · rfl
  · rfl

/-- An error that has a position keeps it. -/
theorem Onward.eq_of_isSome {e e' : EngineError} (h : e.Onward e') (he : e.position.isSome) :
    e' = e := by
  rcases h with rfl | ⟨p, rfl⟩
  · rfl
  · exact fillPosition_of_isSome he p

end EngineError

/-- Whatever question fails, the computation fails with it at once. -/
def Strict {α : Type} (fails : EngineError → α → Prop) : Asking α → Prop
  | .done _ _ => True
  | .ask q _ resume =>
    (∀ a e t, Answer.Fails q e a →
      ∃ e' b t', resume a t = .done b t' ∧ e.Onward e' ∧ fails e' b ∧ t.SameButDepth t') ∧
    ∀ a t, Strict fails (resume a t)

namespace Exec

/-- The computation is strict, and `fail` is how it fails. -/
def Passes (fail : EngineError → ε) (x : Exec ε α) : Prop :=
  ∀ s, Strict (fun e o => o = .raised (fail e)) (x s)

variable {α β ε δ κ : Type} {fail : EngineError → ε}

/-! ## Ways of building computations -/

theorem Small.passes {x : Exec ε α} (h : Small x) : Passes fail x := by
  intro s
  obtain ⟨o, t, hx, -⟩ := h s
  rw [hx]
  trivial

/-- What goes on with the outcome of a strict computation is strict if it ends at once for failures
and is strict for everything else. -/
theorem strict_bind {fails : EngineError → α → Prop} {fails' : EngineError → β → Prop}
    {r : Asking α} {next : α → State → Asking β} (hr : Strict fails r)
    (ends : ∀ e a t, fails e a →
      ∃ e' b t', next a t = .done b t' ∧ e.Onward e' ∧ fails' e' b ∧ t.SameButDepth t')
    (goes : ∀ a t, Strict fails' (next a t)) : Strict fails' (r.bind next) := by
  induction r with
  | done a s => exact goes a s
  | ask q s resume ih =>
      refine ⟨fun a e t ha => ?_, fun a t => ih a t (hr.2 a t)⟩
      -- the failure ends the first part, and that end is one for what follows
      obtain ⟨e', b, t', hresume, onward, hb, same⟩ := hr.1 a e t ha
      obtain ⟨e'', c, u, hnext, onward', hc, same'⟩ := ends e' b t' hb
      have hbind : (resume a t).bind next = .done c u := by
        rw [hresume, Resumption.done_bind, hnext]
      exact ⟨e'', c, u, hbind, onward.trans onward', hc, same.trans same'⟩

theorem passes_bind {x : Exec ε α} {f : α → Exec ε β} (hx : Passes fail x)
    (hf : ∀ a, Passes fail (f a)) : Passes fail (x >>= f) := by
  refine fun s => strict_bind (hx s) (fun e o t ho => ?_) fun o t => ?_
  · subst ho
    exact ⟨e, _, t, rfl, .refl e, rfl, .refl t⟩
  · cases o with
    | ok a => exact hf a t
    | raised e | panicked m => trivial

theorem passes_mapError {fail' : EngineError → δ} {f : ε → δ} {x : Exec ε α} (hx : Passes fail x)
    (h : ∀ e, ∃ e', e.Onward e' ∧ f (fail e) = fail' e') : Passes fail' (x.mapError f) := by
  refine fun s => strict_bind (hx s) (fun e o t ho => ?_) fun _ _ => trivial
  subst ho
  obtain ⟨e', onward, he'⟩ := h e
  exact ⟨e', _, t, rfl, onward, congrArg Outcome.raised he', .refl t⟩

theorem passes_failing {x : Exec EngineError α} (hx : Passes id x) : Passes .failed (failing x) :=
  passes_mapError hx fun e => ⟨e, .refl e, rfl⟩

theorem passes_thenAlways {x : Exec ε α} {f : State → State} (hx : Passes fail x)
    (h : ∀ t : State, t.SameButDepth (f t)) : Passes fail (x.thenAlways f) := by
  refine fun s => strict_bind (hx s) (fun e o t ho => ?_) fun _ _ => trivial
  exact ⟨e, _, _, rfl, .refl e, ho, h t⟩

theorem passes_entered {limit : Option Nat} {refuse : EngineError → ε} {x : Exec ε α}
    (hx : Passes fail x) : Passes fail (entered limit refuse x) := by
  intro s
  unfold entered
  split
  · trivial
  · exact passes_thenAlways (f := fun s => { s with callDepth := s.callDepth - 1 }) hx
      (fun _ => rfl) _

theorem passes_fillPosition {x : Exec Raise α} (hx : Passes .failed x) (p : Position) :
    Passes .failed (x.mapError (·.fillPosition p)) :=
  passes_mapError hx fun e => ⟨e.fillPosition p, .fillPosition e p, rfl⟩

theorem passes_located {x : Exec Raise Completion} (hx : Passes .failed x) (p : Position) :
    Passes id (located p x) := by
  refine fun s => strict_bind (hx s) (fun e o t ho => ?_) fun o t => ?_
  · subst ho
    exact ⟨e.fillPosition p, _, t, rfl, .fillPosition e p, rfl, .refl t⟩
  · match o with
    | .ok _ | .raised (.thrown ..) | .raised (.failed _) | .panicked _ => trivial

/-! ## Questions -/

theorem passes_evaluate (e : Expr) (scope : ScopeId) : Passes .failed (evaluate e scope) :=
  fun _ => ⟨fun a e t ha => ⟨e, a, t, rfl, .refl e, ha, .refl t⟩, fun _ _ => trivial⟩

theorem passes_call (f : FunctionRef) (args : List Value) : Passes .failed (call f args) :=
  fun _ => ⟨fun a e t ha => ⟨e, a, t, rfl, .refl e, ha, .refl t⟩, fun _ _ => trivial⟩

theorem passes_execute (stmt : Stmt) (scope : ScopeId) (cx : Context) :
    Passes id (execute stmt scope cx) :=
  fun _ => ⟨fun a e t ha => ⟨e, a, t, rfl, .refl e, ha, .refl t⟩, fun _ _ => trivial⟩

theorem passes_runBlock (body : Block) (scope : ScopeId) (cx : Context) :
    Passes id (runBlock body scope cx) :=
  fun _ => ⟨fun a e t ha => ⟨e, a, t, rfl, .refl e, ha, .refl t⟩, fun _ _ => trivial⟩

theorem passes_iterate (loop : LoopHead) : Passes .failed (iterate loop) :=
  fun _ => ⟨fun a e t ha => ⟨e, a, t, rfl, .refl e, ha, .refl t⟩, fun _ _ => trivial⟩

/-- Draining the queue never fails. -/
theorem passes_runPending : Passes fail (runPending : Exec ε Nat) := by
  intro s
  unfold runPending
  split
  · trivial
  · exact ⟨fun _ _ _ ha => ha.elim, fun _ _ => trivial⟩

/-- Whatever the engine does outside of its queue, failures pass through. -/
theorem compositional_passes : Compositional fun fail x => x.Passes fail where
  small := Small.passes
  bind := passes_bind
  failing := passes_failing
  fillPosition := passes_fillPosition
  located := passes_located
  entered := passes_entered
  evaluate := passes_evaluate
  call := passes_call
  execute := passes_execute
  runBlock := passes_runBlock
  iterate := passes_iterate
  runPending := passes_runPending

theorem passes_runSpawn (p : Position) (e : Expr) (scope : ScopeId) :
    Passes .failed (runSpawn p e scope) := by
  unfold runSpawn
  split
  · refine passes_bind (compositional_passes.evaluateCall scope _ _) fun fvs => ?_
    exact passes_bind (fun _ => trivial) fun _ => compositional_passes.pure _
  · exact compositional_passes.raise _

end Exec

end StatementEngine
