import StatementEngine.Engine.Interpreter
import StatementEngine.Proofs.PlainFailures

/-!
# Between two questions

**What a body does between two questions is little.** It changes one part of the state
(`State.Step`), and unless it is about modules, tasks or requests to stop, it changes no more than
its own scopes, functions and notes (`State.Change`).

A computation that does so and asks nothing is small (`Exec.Small`), or even plain (`Exec.Plain`):
then it does not fail with `cancelled` either.
-/

namespace StatementEngine

/-- One thing that the engine does to the state between two questions, besides spawning. -/
inductive State.Step (s : State) : State → Prop
  | scopes (scopes : ScopeStore) : Step s { s with scopes }
  | closures (closures : Array Closure) : Step s { s with closures }
  | modules (modules : Registry) : Step s { s with modules }
  | recorded (recorded : Array Value) : Step s { s with recorded }
  | held (held : List TaskId) : Step s { s with held }
  | log (log : Array (String × TaskReply)) : Step s { s with log }
  | cancel (t : TaskId) : Step s { s with scheduler := s.scheduler.cancel t }
  | cancelAll : Step s { s with scheduler := s.scheduler.cancelAll }

/-- What is done to the state between two questions by somebody who has some scopes, tasks and
modules aside. -/
inductive State.Change (K : ScopeId → Prop) (s : State) : State → Prop
  | none : Change K s s
  | define {scope : ScopeId} (mine : K scope) (bindings : List (Name × Value)) :
      Change K s { s with scopes := s.scopes.defineAll scope bindings }
  | overwrite {scope d : ScopeId} {name : Name} (v : Value)
      (found : s.scopes.definer? scope name = some d) :
      Change K s { s with scopes := s.scopes.define d name v }
  | capture (closures : Array Closure) : Change K s { s with closures }
  | record (recorded : Array Value) : Change K s { s with recorded }
  | hold (held : List TaskId) : Change K s { s with held }
  | note (log : Array (String × TaskReply)) : Change K s { s with log }

theorem State.Change.step {K : ScopeId → Prop} {s t : State} (h : s.Change K t) :
    t = s ∨ s.Step t := by
  cases h with
  | none => exact Or.inl rfl
  | define | overwrite => exact Or.inr (.scopes _)
  | capture => exact Or.inr (.closures _)
  | record => exact Or.inr (.recorded _)
  | hold => exact Or.inr (.held _)
  | note => exact Or.inr (.log _)

/-- The failure says that a task was to stop. -/
def Outcome.Stopped {ε α : Type} (fail : EngineError → ε) (o : Outcome ε α) : Prop :=
  ∃ e, o = .raised (fail e) ∧ e.kind = .cancelled

namespace Exec

variable {α β ε δ κ : Type}

/-! ## Small steps -/

/-- The computation asks nothing, and takes at most one step. -/
def Small (x : Exec ε α) : Prop := ∀ s, ∃ o t, x s = .done o t ∧ (t = s ∨ s.Step t)

theorem small_pure (a : α) : Small (pure a : Exec ε α) := fun s => ⟨_, s, rfl, Or.inl rfl⟩

theorem small_raise (e : ε) : Small (raise e : Exec ε α) := fun s => ⟨_, s, rfl, Or.inl rfl⟩

theorem small_read (f : State → α) : Small (read f : Exec ε α) := fun s => ⟨_, s, rfl, Or.inl rfl⟩

theorem small_modify {f : State → State} (step : ∀ s : State, s.Step (f s)) :
    Small (modify f : Exec ε Unit) :=
  fun s => ⟨_, _, rfl, Or.inr (step s)⟩

theorem small_modifyGet {f : State → α × State} (step : ∀ s : State, s.Step (f s).2) :
    Small (modifyGet f : Exec ε α) :=
  fun s => ⟨_, _, rfl, Or.inr (step s)⟩

theorem small_newChild (scope : ScopeId) : Small (newChild scope : Exec ε ScopeId) :=
  small_modifyGet fun _ => .scopes _

theorem Small.mapError {x : Exec ε α} (h : Small x) (f : ε → δ) : Small (x.mapError f) := by
  intro s
  obtain ⟨o, t, hx, step⟩ := h s
  refine ⟨o.mapError f, t, ?_, step⟩
  rw [Exec.mapError, hx]
  rfl

theorem small_checkStop : Small checkStop := by
  intro s
  unfold checkStop
  split
  · exact ⟨_, s, rfl, Or.inl rfl⟩
  · exact ⟨_, s, rfl, Or.inl rfl⟩

/-! ## Plain computations -/

/-- The computation asks nothing and makes at most one change; if it fails, then not since a task is
to stop. -/
def Plain (K : ScopeId → Prop) (fail : EngineError → ε) (x : Exec ε α) : Prop :=
  ∀ s, ∃ o t, x s = .done o t ∧ s.Change K t ∧ ¬ o.Stopped fail

theorem Plain.small {K : ScopeId → Prop} {fail : EngineError → ε} {x : Exec ε α}
    (h : Plain K fail x) : Small x := by
  intro s
  obtain ⟨o, t, hx, change, -⟩ := h s
  exact ⟨o, t, hx, change.step⟩

section Plain
variable {K : ScopeId → Prop} {fail : EngineError → ε}

theorem plain_pure (a : α) : Plain K fail (pure a : Exec ε α) :=
  fun s => ⟨_, s, rfl, .none, nofun⟩

theorem plain_panic (m : String) : Plain K fail (panic m : Exec ε α) :=
  fun s => ⟨_, s, rfl, .none, nofun⟩

theorem plain_read (f : State → α) : Plain K fail (read f : Exec ε α) :=
  fun s => ⟨_, s, rfl, .none, nofun⟩

theorem plain_modify {f : State → State} (change : ∀ s : State, s.Change K (f s)) :
    Plain K fail (modify f : Exec ε Unit) :=
  fun s => ⟨_, _, rfl, change s, nofun⟩

theorem plain_modifyGet {f : State → α × State} (change : ∀ s : State, s.Change K (f s).2) :
    Plain K fail (modifyGet f : Exec ε α) :=
  fun s => ⟨_, _, rfl, change s, nofun⟩

theorem plain_capture (literal : FunctionLiteral) (scope : ScopeId) :
    Plain K fail (capture literal scope : Exec ε Value) :=
  plain_modifyGet fun _ => .capture _

theorem plain_defineAll {scope : ScopeId} (mine : K scope) (bindings : List (Name × Value)) :
    Plain K fail (defineAll scope bindings : Exec ε Unit) :=
  plain_modify fun _ => .define mine bindings

theorem not_stopped {r : Raise} (other : r.isCancelled = false) :
    ¬ (Outcome.raised r : Outcome Raise α).Stopped Raise.failed := by
  rintro ⟨⟨kind, p⟩, same, cancelled⟩
  cases same
  cases cancelled
  cases other

theorem plain_raise {r : Raise} (other : r.isCancelled = false) :
    Plain K Raise.failed (raise r : Exec Raise α) :=
  fun s => ⟨_, s, rfl, .none, not_stopped other⟩

theorem plain_ofExcept {lift : κ → Raise} {r : Except κ α}
    (other : ∀ k, r = .error k → (lift k).isCancelled = false) :
    Plain K Raise.failed (ofExcept lift r) := by
  cases r with
  | ok a => exact plain_pure a
  | error k => exact plain_raise (other k rfl)

/-- The failure of an operation becomes one that does not say that a task was to stop. -/
abbrev Tells (f : ErrorKind → Raise) : Prop := ∀ k, k.OfOperation → (f k).isCancelled = false

theorem tells_ofKind : Tells Raise.ofKind := fun _ h => h.isCancelled none

theorem tells_locate (p : Position) : Tells fun k => .failed ((EngineError.ofKind k).locate p) :=
  fun _ h => h.isCancelled (some p)

theorem plain_readVariable (scope : ScopeId) (name : Name) {f : ErrorKind → Raise}
    (tells : Tells f) : Plain K Raise.failed ((readVariable scope name).mapError f) := by
  intro s
  unfold readVariable mapError
  dsimp only
  split
  · exact ⟨_, s, rfl, .none, nofun⟩
  · exact ⟨_, s, rfl, .none, not_stopped (tells (.undefinedName name) trivial)⟩

theorem plain_setVariable (scope : ScopeId) (name : Name) (v : Value) {f : ErrorKind → Raise}
    (tells : Tells f) : Plain K Raise.failed ((setVariable scope name v).mapError f) := by
  intro s
  unfold mapError
  rw [setVariable_apply]
  split
  · next d found => exact ⟨_, _, rfl, .overwrite v found, nofun⟩
  · exact ⟨_, s, rfl, .none, not_stopped (tells (.undefinedName name) trivial)⟩

theorem plain_raiseError {e : EngineError} (other : e.kind ≠ .cancelled) :
    Plain K id (raise e : Exec EngineError α) := by
  refine fun s => ⟨_, s, rfl, .none, ?_⟩
  rintro ⟨_, same, cancelled⟩
  cases same
  exact other cancelled

theorem plain_readMember (owner name : Name) :
    Plain K Raise.failed (read (fun s => s.modules.resolve s.scopes owner name) >>=
      fun r => ofExcept Raise.ofKind r) :=
  fun s => plain_ofExcept (fun k h => tells_ofKind k (Registry.ofOperation_of_resolve h)) s

end Plain

end Exec

end StatementEngine
