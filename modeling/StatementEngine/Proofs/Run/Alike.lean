import StatementEngine.Engine.Interpreter
import StatementEngine.Engine.Runs
import StatementEngine.Proofs.Contract.Calls

/-!
# Computations that run alike

**Two computations run alike** (`Exec.Alike`) if from every state they come to the same ends: the
same outcome in the same state, and no end where the other has none. What is built of computations
that run alike runs alike, so a part may be replaced by another one.

What a call or a script does with its body is written out here as well (`runs_entered_iff`): it is
refused and changes nothing, or the body runs with one more call entered.
-/

namespace StatementEngine

/-- The two computations come to the same ends. -/
def Exec.Alike (config : Config) (x y : Exec ε α) : Prop :=
  ∀ s o t, Runs config x s o t ↔ Runs config y s o t

variable {config : Config} {ε δ α β : Type}

namespace Exec.Alike

variable {x y z : Exec ε α}

theorem refl (x : Exec ε α) : x.Alike config x := fun _ _ _ => Iff.rfl

theorem symm (h : x.Alike config y) : y.Alike config x := fun s o t => (h s o t).symm

theorem trans (h : x.Alike config y) (h' : y.Alike config z) : x.Alike config z :=
  fun s o t => (h s o t).trans (h' s o t)

theorem of_eq (h : x = y) : x.Alike config y := by
  rw [h]
  exact refl y

theorem bind {f g : α → Exec ε β} (h : x.Alike config y) (hfg : ∀ a, (f a).Alike config (g a)) :
    (x >>= f).Alike config (y >>= g) := by
  intro s o t
  simp only [runs_bind_iff, h s, hfg _ _ o t]

theorem bind_left {f : α → Exec ε β} (h : x.Alike config y) :
    (x >>= f).Alike config (y >>= f) :=
  h.bind fun a => refl (f a)

theorem mapError {f : ε → δ} (h : x.Alike config y) : (x.mapError f).Alike config (y.mapError f) := by
  intro s o t
  simp only [runs_mapError_iff, h s]

end Exec.Alike

/-- The errors of a sequence are the errors of its parts. -/
theorem Exec.mapError_bind (f : ε → δ) (x : Exec ε α) (g : α → Exec ε β) :
    (x >>= g).mapError f = x.mapError f >>= fun a => (g a).mapError f := by
  funext s
  show ((x s).bind _).bind _ = ((x s).bind _).bind _
  rw [Resumption.bind_assoc, Resumption.bind_assoc]
  congr 1
  funext o s
  cases o <;> rfl

/-- After its first part a sequence runs as its second part. -/
theorem runs_bind_of_ok {s t u : State} {x : Exec ε α} {f : α → Exec ε β} {o : Outcome ε β} {a : α}
    (h : Runs config x s (.ok a) u) : Runs config (x >>= f) s o t ↔ Runs config (f a) u o t := by
  rw [runs_bind_iff]
  constructor
  · intro run
    rcases run with ⟨b, s', hx, hf⟩ | ⟨e, hx, -⟩ | ⟨m, hx, -⟩
    · obtain ⟨ha, rfl⟩ := h.unique hx
      cases ha
      exact hf
    · cases (h.unique hx).1
    · cases (h.unique hx).1
  · exact fun run => Or.inl ⟨a, u, h, run⟩

/-- A block runs as its statements do, one after the other. -/
theorem alike_runBlock (body : Block) (scope : ScopeId) (cx : Context) :
    (Exec.runBlock body scope cx).Alike config (Exec.runFrom scope cx body none) :=
  fun _ _ _ => runs_block_iff

/-- A task that has not been asked to stop goes on. -/
theorem Exec.checkStop_bind_of_awake {s : State} (awake : s.stopRequested = false)
    (lift : EngineError → ε) (next : Unit → Exec ε α) :
    (checkStop.mapError lift >>= next) s = next () s := by
  show ((checkStop s).bind _).bind _ = _
  rw [checkStop, awake]
  rfl

/-- A block of one statement is that statement, unless the task is to stop. -/
theorem Exec.blockBody_singleton {stmt : Stmt} {scope : ScopeId} {cx : Context} {s : State}
    (awake : s.stopRequested = false) :
    Exec.blockBody [stmt] scope cx s = Exec.execute stmt scope cx s := by
  show (Exec.runFrom scope cx [stmt] none) s = _
  rw [Exec.runFrom, Exec.checkStop_bind_of_awake awake, Exec.bind_apply]
  unfold Exec.execute
  rw [Resumption.ask_bind]
  congr 1
  funext o t
  rw [Resumption.done_bind]
  cases o with
  | ok c =>
      obtain ⟨value, signal⟩ := c
      cases signal <;> simp [Completion.isNormal, Signal.isNone, Exec.runFrom]
  | raised e | panicked m => rfl

/-- Running a block of one statement is running that statement, unless the task is to stop. -/
theorem runs_block_singleton_iff {stmt : Stmt} {scope : ScopeId} {cx : Context} {s t : State}
    {o : Outcome EngineError Completion} (awake : s.stopRequested = false) :
    Runs config (Exec.runBlock [stmt] scope cx) s o t ↔
      Runs config (Exec.execute stmt scope cx) s o t := by
  refine runs_block_iff.trans ?_
  rw [Runs, Exec.blockBody_singleton awake]
  rfl

/-- After a statement that ends normally, the rest of its block runs. -/
theorem runs_runFrom_cons_of_normal {stmt : Stmt} {rest : Block} {last : Option Value}
    {scope : ScopeId} {cx : Context} {s t u : State} {o : Outcome EngineError Completion}
    {v : Option Value} (awake : s.stopRequested = false)
    (first : Runs config (Exec.execute stmt scope cx) s (.ok ⟨v, .none⟩) u) :
    Runs config (Exec.runFrom scope cx (stmt :: rest) last) s o t ↔
      Runs config (Exec.runFrom scope cx rest (v.or last)) u o t := by
  rw [Exec.runFrom, Runs, Exec.checkStop_bind_of_awake awake]
  exact runs_bind_of_ok first

/-- A statement that ends with a signal ends its block. -/
theorem runs_runFrom_cons_of_signal {stmt : Stmt} {rest : Block} {last : Option Value}
    {scope : ScopeId} {cx : Context} {s u : State} {c : Completion}
    (awake : s.stopRequested = false)
    (first : Runs config (Exec.execute stmt scope cx) s (.ok c) u) (signals : c.isNormal = false) :
    Runs config (Exec.runFrom scope cx (stmt :: rest) last) s (.ok ⟨c.value.or last, c.signal⟩)
      u := by
  rw [Exec.runFrom, Runs, Exec.checkStop_bind_of_awake awake]
  refine (runs_bind_of_ok first).mpr ?_
  rw [signals]
  exact runs_pure_iff.mpr ⟨rfl, rfl⟩

/-! ## Entering a call -/

variable {s t : State}

/-- A computation that is run as a call is refused, or it runs with one more call entered and that
call is left. -/
theorem runs_entered_iff {limit : Option Nat} {refuse : EngineError → ε} {x : Exec ε α}
    {o : Outcome ε α} : Runs config (Exec.entered limit refuse x) s o t ↔
      (∃ max, limit = some max ∧ max ≤ s.callDepth ∧
        o = .raised (refuse (.ofKind (.recursionLimit max))) ∧ t = s) ∨
      ((∀ max ∈ limit, s.callDepth < max) ∧
        ∃ u, Runs config x { s with callDepth := s.callDepth + 1 } o u ∧
          t = { u with callDepth := u.callDepth - 1 }) := by
  rcases Exec.entered_cases limit refuse x s with ⟨max, hmax, reached, entry⟩ | ⟨below, entry⟩
  · unfold Runs
    rw [entry, Resumption.evaluates_done_iff]
    constructor
    · intro run
      exact Or.inl ⟨max, hmax, reached, run⟩
    · intro run
      rcases run with ⟨other, hother, -, ended⟩ | ⟨below, -⟩
      · obtain rfl : max = other := Option.some.inj (hmax.symm.trans hother)
        exact ended
      · exact absurd (below max hmax) (Nat.not_lt_of_le reached)
  · have run : Runs config (Exec.entered limit refuse x) s o t ↔
        Runs config (x.thenAlways fun u => { u with callDepth := u.callDepth - 1 })
          { s with callDepth := s.callDepth + 1 } o t := by
      unfold Runs
      rw [entry]
    rw [run, runs_thenAlways_iff]
    constructor
    · intro ended
      exact Or.inr ⟨below, ended⟩
    · intro ended
      rcases ended with ⟨max, hmax, reached, -⟩ | ⟨-, ended⟩
      · exact absurd (below max hmax) (Nat.not_lt_of_le reached)
      · exact ended

end StatementEngine
