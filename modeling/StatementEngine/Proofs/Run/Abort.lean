import StatementEngine.Proofs.Frame
import StatementEngine.Proofs.Run.Strict

/-!
# A structural error aborts everything

**An error of a block ends the run, unchanged.** No handler, no block at the end of a `try`, no loop
and no later statement has anything to do with it: if the run of a statement, a block, a script or a
call comes to a block (`Resumption.Reaches`) and that block fails, then nothing more is asked, the
error comes out with the position that it has, and the state is the one that the block has left
(`Exec.Passes`). Only the calls in between are left, which the frame of the run counts for.

The main result is `structural_error_aborts`.
-/

namespace StatementEngine

theorem Exec.passes_everywhere (config : Config) : Everywhere config fun x fail => x.Passes fail :=
  compositional_passes.everywhere config

theorem Exec.passes_runScript (config : Config) (script : Block) (scope : ScopeId) :
    Passes id (runScript config script scope) :=
  (passes_everywhere config).runScript script scope

/-- Every question that is not closed is answered strictly. -/
theorem strict_bodies (config : Config) {q : Request} (opened : q.Open) (s : State) :
    Strict (Answer.Fails q) (Interpreter.bodies config q s) := by
  cases q with
  | evaluate e scope => exact Exec.compositional_passes.evaluateBody e scope s
  | call f args => exact Exec.compositional_passes.callBody config f args s
  | execute stmt scope cx =>
      exact Exec.compositional_passes.executeBody stmt scope cx
        (fun e _ => Exec.passes_runSpawn stmt.position e scope) s
  | block body scope cx => exact Exec.compositional_passes.blockBody body scope cx s
  | iterate loop => exact Exec.compositional_passes.iterateBody loop s
  | work w | drain ran | await what => exact opened.elim

/-! ## Errors of blocks have positions -/

variable {config : Config} {s t : State} {e : EngineError}

theorem position_of_runs_execute {stmt : Stmt} {scope : ScopeId} {cx : Context}
    (h : Runs config (Exec.execute stmt scope cx) s (.raised e) t) : e.position.isSome := by
  obtain ⟨e', -, rfl⟩ := runs_located_raised_iff.mp (runs_execute_iff.mp h)
  simp

theorem position_of_runs_runFrom {body : Block} {scope : ScopeId} {cx : Context}
    {last : Option Value} (h : Runs config (Exec.runFrom scope cx body last) s (.raised e) t) :
    e.position.isSome := by
  induction body generalizing last s with
  | nil => cases (runs_pure_iff.mp h).1
  | cons stmt rest ih =>
      -- a later statement fails, or the first one does, or the task is to stop
      rcases runs_bind_raised_iff.mp h with ⟨_, s₁, -, h⟩ | h
      · rcases runs_bind_raised_iff.mp h with ⟨c, s₂, -, h⟩ | h
        · split at h
          · exact ih h
          · cases (runs_pure_iff.mp h).1
        · exact position_of_runs_execute h
      · obtain ⟨p, -, h⟩ := runs_mapError_iff.mp h
        cases p with
        | raised e' =>
            cases h
            simp
        | ok _ | panicked _ => cases h

/-! ## From the block that fails to the run that ends -/

/-- Where a question fails that a strict computation has come to, the computation ends. -/
theorem aborts_of_reaches {α : Type} {fails : EngineError → α → Prop} {r : Asking α}
    {before within : List (Request × State)} {q : Request} {a : Answer q}
    (h : Resumption.Reaches (Interpreter.bodies config) Request.Open r before q s)
    (hr : Strict fails r)
    (answered : Resumption.Traces (Interpreter.bodies config) (Interpreter.bodies config q s)
      within a t) (ha : Answer.Fails q e a) :
    ∃ e' b t', Resumption.Traces (Interpreter.bodies config) r (before ++ (q, s) :: within) b t' ∧
      e.Onward e' ∧ fails e' b ∧ t.SameButDepth t' := by
  induction h with
  | here q s resume =>
      obtain ⟨e', b, t', hresume, onward, hb, same⟩ := hr.1 a e t ha
      refine ⟨e', b, t', ?_, onward, hb, same⟩
      have ended : Resumption.Traces (Interpreter.bodies config) (resume a t) [] b t' := by
        rw [hresume]
        exact .done b t'
      simpa using Resumption.Traces.ask answered ended
  | @inside α q₀ q s₀ s resume before opened _ ih =>
      -- the failure is the answer to the question around it, and fails that in turn
      obtain ⟨e', b, u, inner, onward, hb, same⟩ := ih (strict_bodies config opened s₀) answered ha
      obtain ⟨e'', c, t', hresume, onward', hc, same'⟩ := hr.1 b e' u hb
      refine ⟨e'', c, t', ?_, onward.trans onward', hc, same.trans same'⟩
      have ended : Resumption.Traces (Interpreter.bodies config) (resume b u) [] c t' := by
        rw [hresume]
        exact .done c t'
      simpa using Resumption.Traces.ask inner ended
  | after first _ ih =>
      obtain ⟨e', b, t', rest, onward, hb, same⟩ := ih (hr.2 _ _) answered ha
      refine ⟨e', b, t', ?_, onward, hb, same⟩
      simpa using Resumption.Traces.ask first rest

/-- The run comes to a block that fails. The trace is what is asked until that block has failed, and
the state is the one in which it fails. -/
def FailsInside {α : Type} (config : Config) (r : Asking α) (trace : List (Request × State))
    (e : EngineError) (t : State) : Prop :=
  ∃ body scope cx s before within,
    Resumption.Reaches (Interpreter.bodies config) Request.Open r before (.block body scope cx) s ∧
    Resumption.Traces (Interpreter.bodies config) (Exec.blockBody body scope cx s) within
      (.raised e) t ∧
    trace = before ++ (.block body scope cx, s) :: within

/-- Whatever block fails inside of the computation, the computation fails with the same error. It
asks nothing more and leaves the state as it is, at its own call depth. -/
def Exec.Aborts {ε α : Type} (config : Config) (x : Exec ε α) (fail : EngineError → ε) : Prop :=
  ∀ s trace e t, FailsInside config (x s) trace e t →
    Resumption.Traces (Interpreter.bodies config) (x s) trace (.raised (fail e))
      { t with callDepth := s.callDepth }

/-- Where a question fails with an error that has a position, the computation ends with that
error. -/
theorem Exec.Passes.traces_of_reaches {ε α : Type} {x : Exec ε α} {fail : EngineError → ε}
    (hx : x.Passes fail) (kept : ∀ o t, Runs config x s o t → t.callDepth = s.callDepth)
    {before within : List (Request × State)} {q : Request} {u : State} {a : Answer q}
    (reached : Resumption.Reaches (Interpreter.bodies config) Request.Open (x s) before q u)
    (answered : Resumption.Traces (Interpreter.bodies config) (Interpreter.bodies config q u)
      within a t) (failed : Answer.Fails q e a) (positioned : e.position.isSome) :
    Resumption.Traces (Interpreter.bodies config) (x s) (before ++ (q, u) :: within)
      (.raised (fail e)) { t with callDepth := s.callDepth } := by
  obtain ⟨e', o, t', run, onward, rfl, same⟩ := aborts_of_reaches reached (hx s) answered failed
  obtain rfl := onward.eq_of_isSome positioned
  -- strictness leaves the call depth open, and the frame of the run settles it
  have depth := kept _ t' run.evaluates
  rw [State.SameButDepth, depth] at same
  rwa [← same]

theorem Exec.Passes.aborts {ε α : Type} {x : Exec ε α} {fail : EngineError → ε}
    (hx : x.Passes fail)
    (kept : ∀ s o t, Runs config x s o t → t.callDepth = s.callDepth) : x.Aborts config fail := by
  intro s trace e t inside
  obtain ⟨body, scope, cx, s₁, before, within, reached, failed, rfl⟩ := inside
  -- the error of a block has a position already
  exact hx.traces_of_reaches (kept s) reached failed rfl
    (position_of_runs_runFrom failed.evaluates)

/-- **A structural error aborts everything, verbatim**: every statement, every block, every script,
every call and every expression that runs the failing block, however deeply nested it is. -/
theorem structural_error_aborts (config : Config) :
    (∀ body scope cx, (Exec.runBlock body scope cx).Aborts config id) ∧
    (∀ stmt scope cx, (Exec.execute stmt scope cx).Aborts config id) ∧
    (∀ script scope, (Exec.runScript config script scope).Aborts config id) ∧
    (∀ f args, (Exec.call f args).Aborts config Raise.failed) ∧
    ∀ e scope, (Exec.evaluate e scope).Aborts config Raise.failed := by
  refine ⟨fun body scope cx => ?_, fun stmt scope cx => ?_, fun script scope => ?_,
    fun f args => ?_, fun e scope => ?_⟩
  · refine (Exec.passes_runBlock body scope cx).aborts fun s o t h => ?_
    exact (kept_of_answer h).callDepth
  · refine (Exec.passes_execute stmt scope cx).aborts fun s o t h => ?_
    exact (kept_of_answer h).callDepth
  · refine (Exec.passes_runScript config script scope).aborts fun s o t h => ?_
    exact (kept_of_runs_script h).callDepth
  · refine (Exec.passes_call f args).aborts fun s o t h => ?_
    exact (kept_of_answer h).callDepth
  · refine (Exec.passes_evaluate e scope).aborts fun s o t h => ?_
    exact (kept_of_answer h).callDepth

/-- Neither the handler nor the block at the end of a `try` runs when its body fails, and nothing
does after it. -/
theorem structural_error_aborts_try :
    let record : Block := [⟨⟨3, 1⟩, .expr (.call (.literal (.function .recorder)) [])⟩]
    let inner : Block := [⟨⟨2, 1⟩, .expr (.fail "broken")⟩]
    let guarded : Stmt := ⟨⟨1, 1⟩, .tryCatch inner (some ⟨⟨1, 5⟩, none, record⟩) (some record)⟩
    let s := (State.initial .deferred .log).newRoot
    ∃ e t, Runs .standard (Exec.runScript .standard (guarded :: record) s.1) s.2 (.raised e) t ∧
      e.position = some ⟨2, 1⟩ ∧ t.recorded = #[] := by
  intro record inner guarded s
  let s₁ : State := { s.2 with callDepth := 1 }
  let s₂ : State := (s₁.newChild s.1).2
  obtain ⟨t, failed, silent⟩ : ∃ t, Runs .standard
      (Exec.blockBody inner s₁.scopes.next .function) s₂
      (.raised ⟨.invalidOperation "broken", some ⟨2, 1⟩⟩) t ∧ t.recorded = #[] :=
    ⟨_, runs_iff_run.mpr ⟨20, rfl⟩, rfl⟩
  obtain ⟨within, failed⟩ := Resumption.Evaluates.traces failed
  -- the failing block is the second question inside of the script
  have reached : Resumption.Reaches (Interpreter.bodies .standard) Request.Open
      (Exec.runScript .standard (guarded :: record) s.1 s.2)
      [(.block (guarded :: record) s.1 .function, s₁), (.execute guarded s.1 .function, s₁)]
      (.block inner s₁.scopes.next .function) s₂ := by
    refine .inside trivial (.inside trivial ?_)
    exact .here _ _ _
  have aborted := (structural_error_aborts .standard).2.2.1 (guarded :: record) s.1 s.2 _ _ t
    ⟨inner, s₁.scopes.next, .function, s₂, _, within, reached, failed, rfl⟩
  exact ⟨_, _, aborted.evaluates, rfl, silent⟩

end StatementEngine
