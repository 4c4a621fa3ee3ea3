import StatementEngine.Proofs.Lexical.Obedience
import StatementEngine.Proofs.SignalConfinement

/-!
# Control flow in its place

**What is written in the right place is never run in a wrong one.** The rule `Rule.controlFlow`
wants every `breakLoop` and `continueLoop` in a loop of the same function or module, and every
`returnValues` where a return is possible. The engine knows nothing of sites: it looks at the
context, which it carries along and starts afresh for calls and modules. The contract `placement`
says that both agree: where trees and captured functions obey the rule, no error is about misplaced
control flow.

A function may travel anywhere before it is called. It does not matter, since values only refer to
captured functions, and all of those obey the rule.
-/

namespace StatementEngine

/-- Loops are left from inside of them, and what is returned from can be returned from. -/
def Rule.controlFlow : Rule where
  expr _ := True
  stmt site stmt :=
    match stmt.form with
    | .breakLoop | .continueLoop => site.inLoop = true
    | .returnValues _ => site.callable = true
    | _ => True

/-- The error is not about misplaced control flow. -/
def ErrorKind.Placed : ErrorKind → Prop
  | breakOutsideLoop | continueOutsideLoop | returnOutsideFunction => False
  | _ => True

def EngineError.Placed (e : EngineError) : Prop := e.kind.Placed

def Raise.Placed : Raise → Prop
  | thrown .. => True
  | failed e => e.Placed

theorem ErrorKind.IsPlain.placed {k : ErrorKind} (h : k.IsPlain) : k.Placed := by
  cases k <;> trivial

theorem Raise.OfOperation.placed {r : Raise} (h : r.OfOperation) : r.Placed := by
  cases r with
  | thrown v at? => trivial
  | failed e => exact (ErrorKind.OfOperation.isPlain h).placed

theorem Raise.Placed.fillPosition {r : Raise} (h : r.Placed) (p : Position) :
    (r.fillPosition p).Placed := by
  cases r with
  | thrown v at? => trivial
  | failed e => exact h

/-- The captured functions obey the rule for control flow. -/
abbrev State.Ordered : State → Prop := State.Obeys .controlFlow

/-- Given trees and functions that obey the rule, no error is about misplaced control flow. -/
def ordered : Contract where
  requires q s := q.Obeys .controlFlow ∧ s.Ordered
  promises
    | .evaluate .., _, o, t => t.Ordered ∧ o.Within (fun _ => True) Raise.Placed
    | .call .., _, o, t => t.Ordered ∧ o.Within (fun _ => True) Raise.Placed
    | .execute .., _, o, t => t.Ordered ∧ o.Within (fun _ => True) EngineError.Placed
    | .block .., _, o, t => t.Ordered ∧ o.Within (fun _ => True) EngineError.Placed
    | .iterate _, _, o, t => t.Ordered ∧ o.Within (fun _ => True) Raise.Placed
    | .work (.call ..), _, o, t => t.Ordered ∧ o.Within (fun _ => True) Raise.Placed
    | .work (.perform ..), _, _, t => t.Ordered
    | .drain _, _, _, t => t.Ordered
    | .await _, _, _, t => t.Ordered

/-- What a call makes of its body depends on the signals of the body, so both contracts go
together. -/
abbrev placement : Contract := confinement.and ordered

namespace Exec

section Questions

theorem placed_evaluate {e : Expr} (h : e.Obeys .controlFlow) (scope : ScopeId) :
    Meets placement State.Ordered (fun _ => True) Raise.Placed (evaluate e scope) :=
  meets_evaluate fun _ hs => ⟨⟨trivial, h, hs⟩, fun _ _ ho => ho.2⟩

theorem placed_call (f : FunctionRef) (args : List Value) :
    Meets placement State.Ordered (fun _ => True) Raise.Placed (call f args) :=
  meets_call fun _ hs => ⟨⟨trivial, trivial, hs⟩, fun _ _ ho => ho.2⟩

theorem placed_execute {stmt : Stmt} {cx : Context} (h : stmt.Obeys .controlFlow cx.site)
    (scope : ScopeId) :
    Meets placement State.Ordered (Signaling fun _ => True) EngineError.Placed
      (execute stmt scope cx) :=
  meets_execute fun _ hs => ⟨⟨trivial, h, hs⟩, fun _ _ ho => ho.2⟩

theorem placed_block {body : Block} {cx : Context} (h : BlockObeys .controlFlow cx.site body)
    (scope : ScopeId) :
    Meets placement State.Ordered (Signaling fun _ => True) EngineError.Placed
      (runBlock body scope cx) :=
  meets_runBlock fun _ hs => ⟨⟨trivial, h, hs⟩, fun _ _ ho => ho.2⟩

/-- The signals of a body that is called are those of no loop. -/
theorem placed_callee {body : Block} (h : BlockObeys .controlFlow .function body)
    (scope : ScopeId) :
    Meets placement State.Ordered (Signaling Context.function.Lets) EngineError.Placed
      (runBlock body scope .function) := by
  refine meets_runBlock fun _ hs => ⟨⟨trivial, h, hs⟩, fun o t ho => ⟨ho.2.1, ?_⟩⟩
  -- the signal is what the one contract promises, the error what the other does
  cases o with
  | ok c => exact ho.1
  | raised e => exact ho.2.2
  | panicked m => trivial

theorem placed_iterate {loop : LoopHead} (h : (Request.iterate loop).Obeys .controlFlow) :
    Meets placement State.Ordered (Signaling fun _ => True) Raise.Placed (iterate loop) :=
  meets_iterate fun _ hs => ⟨⟨trivial, h, hs⟩, fun _ _ ho => ho.2⟩

/-- A task may also fail as a function of the host pleases. -/
theorem placed_doWork (w : Work) :
    Meets placement State.Ordered (fun _ => True) (fun _ => True) (doWork w) := by
  refine meets_doWork fun _ hs => ⟨⟨trivial, trivial, hs⟩, fun o t ho => ?_⟩
  cases w with
  | call f args => exact ⟨ho.2.1, o.within_true⟩
  | perform name body args => exact ⟨ho.2, o.within_true⟩

theorem placed_drain {bad : ε → Prop} :
    Meets placement State.Ordered (fun _ => True) bad (drain : Exec ε Nat) :=
  meets_drain fun _ hs => ⟨⟨trivial, trivial, hs⟩, fun _ _ ho => ⟨ho.2, trivial⟩⟩

theorem placed_await {bad : ε → Prop} (what : Awaited) :
    Meets placement State.Ordered (fun _ => True) bad (await what : Exec ε Unit) :=
  meets_await fun _ hs => ⟨⟨trivial, trivial, hs⟩, fun _ _ ho => ⟨ho.2, trivial⟩⟩

end Questions

theorem placed_plain (k : ErrorKind) (h : k.IsPlain) : (Raise.ofKind k).Placed := h.placed

/-! ## Statements and blocks -/

theorem placed_bounds :
    Bounds (fun _ _ => True) EngineError.Placed Raise.Placed where
  normal _ := trivial
  handOn _ _ _ _ _ := trivial
  lift _ h := h
  plain := placed_plain

/-- What the site allows the context allows as well, so there is no error about it. -/
theorem placed_jumps {stmt : Stmt} {cx : Context} (h : stmt.Obeys .controlFlow cx.site) :
    JumpsMeet (fun _ _ => True) EngineError.Placed Raise.Placed stmt.position stmt.form cx := by
  obtain ⟨p, form⟩ := stmt
  -- the rule says of the site what the engine asks of the context
  have here := h.here
  constructor
  · intro hform
    subst hform
    have inLoop : cx.inLoop = true := here
    rw [if_pos inLoop]
    trivial
  · intro hform
    subst hform
    have inLoop : cx.inLoop = true := here
    rw [if_pos inLoop]
    trivial
  · intro values hform
    subst hform
    have callable : cx.callable = true := here
    rw [if_pos callable]
    exact fun _ => trivial
  · intros
    trivial
  · intros
    trivial

theorem placed_runForm {stmt : Stmt} {cx : Context} (h : stmt.Obeys .controlFlow cx.site)
    (scope : ScopeId) :
    Meets placement State.Ordered (Signaling fun _ => True) Raise.Placed
      (runForm stmt.position stmt.form scope cx) := by
  refine meets_runForm (stable_obeys.at scope) placed_bounds (fun q _ _ hr => hr.fillPosition q)
    (placed_jumps h) ?_
  exact {
    evaluated := fun e he => placed_evaluate (h.evaluated he) scope
    bodies := fun b hb => blockMeets_inner fun child _ => placed_block (h.bodies hb) child
    start := fun first hfirst child => meets_inner fun _ => placed_execute (h.start hfirst) child
    round := fun c u b hround => ⟨placed_iterate (h.iterate hround scope),
      fun child => meets_inner fun _ => placed_iterate (h.iterate hround child)⟩
    declared := fun _ _ _ _ hs => hs }

theorem placed_iterateBody {loop : LoopHead} (h : (Request.iterate loop).Obeys .controlFlow) :
    Meets placement State.Ordered (Signaling fun _ => True) Raise.Placed (iterateBody loop) :=
  meets_iterateBody trivial (fun _ h => h) placed_plain (fun _ _ _ _ => trivial)
    (stable_obeys.at loop.scope) (fun e he => placed_evaluate (h.1 e he) _)
    (fun e he => placed_evaluate (h.2.1 e he) _)
    (blockMeets_inner fun child _ => placed_block h.2.2 child) (placed_iterate h)

theorem placed_blockBody {body : Block} {cx : Context} (h : BlockObeys .controlFlow cx.site body)
    (scope : ScopeId) :
    Meets placement State.Ordered (Signaling fun _ => True) EngineError.Placed
      (blockBody body scope cx) :=
  meets_runFrom trivial (fun _ _ => trivial) fun stmt hs => placed_execute (h stmt hs) scope

/-! ## Calls -/

theorem placed_callBody (config : Config) (f : FunctionRef) (args : List Value) :
    Meets placement State.Ordered (fun _ => True) Raise.Placed (callBody config f args) := by
  refine meets_callBody placed_plain (fun _ _ => ?_) placed_drain stable_obeys.toSteady
    (fun _ hs => hs) fun c hc => ?_
  · exact meets_runHost (fun _ own _ => own.placed) fun g vs _ _ => placed_call g vs
  · exact meets_callClosure placed_plain (fun _ h => h) (fun _ _ _ => trivial)
      (fun h => absurd h not_lets_break) (fun h => absurd h not_lets_continue) (fun _ hs _ => hs)
      (fun _ ht => ht) stable_obeys fun frame _ => placed_callee hc frame

end Exec

/-- Every run keeps control flow in its place. -/
theorem placement_honored (config : Config) : placement.Honored config := by
  refine (confinement_honored config).and ?_
  intro q s required
  obtain ⟨-, hq, hs⟩ := required
  cases q with
  | evaluate e scope =>
      exact Exec.meets_evaluateBody Exec.placed_plain (stable_obeys.at scope) (fun _ => trivial)
        (fun o ho => Exec.placed_evaluate (hq.operand ho) scope) Exec.placed_call
        (fun literal h => Exec.obeys_capture (h ▸ hq).body) s hs
  | call f args => exact Exec.placed_callBody config f args s hs
  | execute stmt scope cx =>
      exact Exec.meets_located (Exec.placed_runForm hq scope) (fun _ _ _ => trivial)
        (fun _ h => h) s hs
  | block body scope cx => exact Exec.placed_blockBody hq scope s hs
  | iterate loop => exact Exec.placed_iterateBody hq s hs
  | work w =>
      cases w with
      | call f args => exact Exec.placed_call f args s hs
      | perform name body args =>
          exact (Exec.meets_perform stable_obeys.toSteady Exec.placed_await
            Exec.placed_drain body s hs).mono fun _ _ h => h.1
  | drain ran =>
      refine Exec.ensures_drainBody stable_obeys.toSteady hs (fun job => ?_) fun t ht =>
        ⟨⟨trivial, trivial, ht⟩, fun _ _ h => ⟨h.2, trivial⟩⟩
      exact Exec.meets_runJob (J := State.Ordered) (B := fun _ => True) stable_obeys.toSteady
        (Exec.placed_doWork job.work) (fun _ h => h) fun _ _ _ h => h
  | await what => exact hs

/-! ## Scripts and functions -/

theorem Exec.placed_runScript (config : Config) {script : Block}
    (h : BlockObeys .controlFlow .function script) (scope : ScopeId) :
    Meets placement State.Ordered Execution.Handed EngineError.Placed
      (runScript config script scope) :=
  meets_runScript (fun _ _ _ => trivial) (fun h => absurd h not_lets_break)
    (fun h => absurd h not_lets_continue) (fun _ => trivial) (fun _ hs _ => hs)
    (fun _ ht => ht) (placed_callee h scope)

theorem Exec.placed_callBlock (config : Config) {body : Block}
    (h : BlockObeys .controlFlow .function body) (scope : ScopeId) :
    Meets placement State.Ordered (fun _ => True) Raise.Placed (callBlock config body scope) :=
  meets_callBlock placed_plain (fun _ h => h) (fun _ _ _ => trivial)
    (fun h => absurd h not_lets_break) (fun h => absurd h not_lets_continue) (fun _ hs _ => hs)
    (fun _ ht => ht) (placed_callee h scope)

end StatementEngine
