import StatementEngine.Proofs.Run.Asked
import StatementEngine.Proofs.Run.Reached
import StatementEngine.Proofs.Run.Strict

/-!
# Runs that only queue their tasks

**Outside of tasks an engine only asks direct questions** (`Request.Direct`): it evaluates, calls,
executes, and may have the queue run. Nothing but the queue does the work of a task or waits for a
worker. So a run that never has the queue run (`Exec.OnlyQueues`) only comes to open questions, at
any depth, and what it does can be read off the bodies that answer these.

If two hosts answer all open questions that a run comes to in the same way, the run is the same for
both (`Resumption.Evaluates.congr_of_reached`).
-/

namespace StatementEngine

/-- The questions that are asked outside of tasks. -/
def Request.Direct (q : Request) : Prop := q.Open ∨ ∃ ran, q = .drain ran

namespace Exec

variable {ε δ α β : Type}

/-- The computation asks direct questions only. -/
def AsksDirectly (x : Exec ε α) : Prop :=
  ∀ s, Resumption.Ensures (fun q _ => q.Direct) (fun _ _ _ _ => True) (x s) fun _ _ => True

/-- The computation does not come to have the queue run: the tasks that it spawns are only
queued. -/
def OnlyQueues (config : Config) (x : Exec ε α) (s : State) : Prop :=
  ∀ before ran u,
    ¬ Resumption.Reaches (Interpreter.bodies config) Request.Open (x s) before (.drain ran) u

/-- What goes on with the outcome of a computation asks directly if both do. -/
theorem asksDirectly_then {x : Exec ε α} {next : Outcome ε α → State → Asking β}
    (hx : x.AsksDirectly) (hnext : ∀ o t, Resumption.Ensures (fun q _ => q.Direct)
      (fun _ _ _ _ => True) (next o t) fun _ _ => True) (s : State) :
    Resumption.Ensures (fun q _ => q.Direct) (fun _ _ _ _ => True) ((x s).bind next)
      fun _ _ => True :=
  Resumption.ensures_bind.mpr ((hx s).mono fun o t _ => hnext o t)

theorem asksDirectly_mapError {f : ε → δ} {x : Exec ε α} (hx : x.AsksDirectly) :
    (x.mapError f).AsksDirectly :=
  asksDirectly_then hx fun _ _ => trivial

theorem asksDirectly_thenAlways {f : State → State} {x : Exec ε α} (hx : x.AsksDirectly) :
    (x.thenAlways f).AsksDirectly :=
  asksDirectly_then hx fun _ _ => trivial

theorem asksDirectly_bind {x : Exec ε α} {f : α → Exec ε β} (hx : x.AsksDirectly)
    (hf : ∀ a, (f a).AsksDirectly) : (x >>= f).AsksDirectly := by
  refine asksDirectly_then hx fun o t => ?_
  cases o with
  | ok a => exact hf a t
  | raised e | panicked m => trivial

/-- Outside of its queue the engine asks direct questions only. -/
theorem compositional_asksDirectly : Compositional fun _ x => x.AsksDirectly where
  small h s := by
    obtain ⟨o, t, hx, -⟩ := h s
    rw [hx]
    trivial
  bind := asksDirectly_bind
  failing := asksDirectly_mapError
  fillPosition hx _ := asksDirectly_mapError hx
  located hx p := asksDirectly_then hx fun o _ => by
    match o with
    | .ok _ | .raised (.thrown ..) | .raised (.failed _) | .panicked _ => trivial
  entered hx s := by
    unfold entered
    split
    · trivial
    · exact asksDirectly_thenAlways hx _
  evaluate _ _ _ := ⟨Or.inl trivial, fun _ _ _ => trivial⟩
  call _ _ _ := ⟨Or.inl trivial, fun _ _ _ => trivial⟩
  execute _ _ _ _ := ⟨Or.inl trivial, fun _ _ _ => trivial⟩
  runBlock _ _ _ _ := ⟨Or.inl trivial, fun _ _ _ => trivial⟩
  iterate _ _ := ⟨Or.inl trivial, fun _ _ _ => trivial⟩
  runPending s := by
    unfold runPending
    split
    · trivial
    · exact ⟨Or.inr ⟨0, rfl⟩, fun _ _ _ => trivial⟩

theorem asksDirectly_runSpawn (p : Position) (e : Expr) (scope : ScopeId) :
    (runSpawn p e scope).AsksDirectly := by
  unfold runSpawn
  split
  · refine asksDirectly_bind (compositional_asksDirectly.evaluateCall scope _ _) fun fvs => ?_
    exact asksDirectly_bind (fun _ => trivial) fun _ _ => trivial
  · exact fun _ => trivial

end Exec

/-- The body of an open question asks direct questions only. -/
theorem direct_bodies (config : Config) {q : Request} (opened : q.Open) (s : State) :
    Resumption.Ensures (fun q _ => q.Direct) (fun _ _ _ _ => True)
      (Interpreter.bodies config q s) fun _ _ => True := by
  cases q with
  | evaluate e scope => exact Exec.compositional_asksDirectly.evaluateBody e scope s
  | call f args => exact Exec.compositional_asksDirectly.callBody config f args s
  | execute stmt scope cx =>
      exact Exec.compositional_asksDirectly.executeBody stmt scope cx
        (fun e _ => Exec.asksDirectly_runSpawn stmt.position e scope) s
  | block body scope cx => exact Exec.compositional_asksDirectly.blockBody body scope cx s
  | iterate loop => exact Exec.compositional_asksDirectly.iterateBody loop s
  | work w | drain ran | await what => exact opened.elim

variable {config : Config} {s t : State} {ε α : Type} {x : Exec ε α}

/-- A run that only queues its tasks comes to open questions. -/
theorem Exec.OnlyQueues.open_of_reaches (h : x.OnlyQueues config s) (hx : x.AsksDirectly)
    {before : List (Request × State)} {q : Request} {u : State}
    (reached : Resumption.Reaches (Interpreter.bodies config) Request.Open (x s) before q u) :
    q.Open := by
  have direct : q.Direct := reached.asked (fun _ u _ opened => direct_bodies config opened u)
    (fun _ _ _ _ _ _ => trivial) (hx s)
  rcases direct with opened | ⟨ran, rfl⟩
  · exact opened
  · exact absurd reached (h before ran u)

/-- A run that has ended without having the queue run. -/
theorem Exec.onlyQueues_of_asks {asked : Questions} {o : Outcome ε α}
    (run : Asks config x s asked o t) (quiet : ∀ q ∈ asked, ∀ ran, q.1 ≠ .drain ran) :
    x.OnlyQueues config s :=
  fun _ ran _ reached => quiet _ (reached.mem_trace run) ran rfl

/-- Bodies that agree on the questions that a run comes to run it the same. -/
theorem Resumption.Evaluates.congr_of_reached {Q : Type} {A : Q → Type} {σ : Type}
    {bodies bodies' : Bodies A σ} {isOpen : Q → Prop} {r : Resumption A σ α} {a : α} {s : σ}
    (h : Evaluates bodies r a s)
    (reached : ∀ before q u, Reaches bodies isOpen r before q u →
      isOpen q ∧ bodies q u = bodies' q u) : Evaluates bodies' r a s := by
  induction h with
  | done a s => exact .done a s
  | @ask α q s s' s'' resume b a answered _ ihq ihr =>
      obtain ⟨opened, same⟩ := reached [] q s (.here q s resume)
      have answered' := ihq fun _ _ _ h => reached _ _ _ (.inside opened h)
      rw [same] at answered'
      obtain ⟨trace, traced⟩ := answered.traces
      exact .ask answered' (ihr fun _ _ _ h => reached _ _ _ (.after traced h))

end StatementEngine
