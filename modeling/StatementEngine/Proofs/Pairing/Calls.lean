import StatementEngine.Proofs.Pairing.Statements
import StatementEngine.Proofs.Pairing.Tasks
import StatementEngine.Proofs.Run.Direct
import StatementEngine.Proofs.Run.Ends

/-!
# Pairs of calls and scripts

**A function does the same in both runs.** A captured function has the same code in both, and its
body runs in a new scope below paired ones. A program of the host is the same program in both, and
the builtins look at what both states have in common, or have the queue run. So all bodies answer
paired questions in lockstep (`pairs_bodies`), and paired runs of a script end alike
(`Exec.pairs_runScript`).
-/

namespace StatementEngine

namespace Exec

variable {P : Pairing} {n : Nat} {i i' : ScopeId} {α β ε : Type}

/-- Both runs are refused, or both are entered. -/
theorem pairs_entered {ok : α → β → Prop} {bad : ε → Prop} {limit : Option Nat}
    {refuse : EngineError → ε} {x : Exec ε α} {x' : Exec ε β} (hx : Pairs P n ok bad x x')
    (refused : ∀ e, bad (refuse e)) :
    Pairs P n ok bad (entered limit refuse x) (entered limit refuse x') := by
  intro s s' twin
  cases twin with
  | intro h' twin room =>
      unfold entered
      rw [show (s.withHeap h').callDepth = s.callDepth from rfl]
      split
      · exact ⟨.intro h' twin room, .raised (refused _)⟩
      · next depth _ =>
          have inside : P.Twin n { s with callDepth := depth }
            { s.withHeap h' with callDepth := depth } := .intro h' twin room
          refine Resumption.Lockstep.bind ((hx _ _ inside).mono fun o t o' t' ended => ?_)
          refine ⟨?_, ended.2⟩
          cases ended.1 with
          | intro h' twin room => exact .intro h' twin room

theorem pairs_callResult {c : Completion} (hc : c.Only P.fn) :
    PairsRaise P n (Value.Only P.fn) (callResult c) (callResult c) := by
  obtain ⟨value, signal⟩ := c
  cases signal with
  | none => exact pairs_value (Value.only_getD hc.1)
  | returned vs => exact pairs_value (Value.only_collapse hc.2)
  | thrown v p => exact pairs_raise hc.2
  | breakLoop | continueLoop => exact pairs_raise trivial

theorem pairs_callBlock {config : Config} {body : Block} (obeys : BlockObeys P.rule .function body)
    (paired : P.own n i i') :
    PairsRaise P n (Value.Only P.fn) (callBlock config body i) (callBlock config body i') := by
  refine pairs_entered ?_ fun _ => trivial
  exact pairs_then (pairs_failing (pairs_runBlock obeys paired)) fun c hc => pairs_callResult hc

theorem pairs_callClosure {config : Config} {c c' : Closure} {args : List Value}
    (same : c.Pairs (P.scope n) P.rule c') (hargs : ∀ v ∈ args, v.Only P.fn) :
    PairsRaise P n (Value.Only P.fn) (callClosure config c args) (callClosure config c' args) := by
  unfold callClosure
  rw [same.literal]
  refine pairs_withChild same.scope fun m frame frame' _ child => ?_
  refine pairs_then (pairs_defineAll child (only_padded hargs _ _)) fun _ _ => ?_
  exact pairs_callBlock same.obeys child

/-! ## Functions of the host -/

/-- A program of the host does the same in both runs, with the same values. -/
theorem pairs_runHost {program : HostProgram} (only : program.Only P.fn) :
    PairsRaise P n (Value.Only P.fn) (runHost program) (runHost program) := by
  induction program with
  | yield v => exact pairs_value only
  | raise r own => exact pairs_raise only
  | panic message => exact pairs_panic message
  | call f args next ih =>
      obtain ⟨hf, hargs, rest⟩ := only
      exact pairs_then (pairs_call hf hargs) fun v hv => ih v (rest v hv)

theorem pairs_callBuiltin {b : Builtin} {args : List Value} (hb : P.fn (.builtin b))
    (hargs : ∀ v ∈ args, v.Only P.fn) :
    PairsRaise P n (Value.Only P.fn) (callBuiltin b args) (callBuiltin b args) := by
  cases b with
  | depth | live => exact pairs_readRest (fun _ _ => rfl) fun _ => Value.only_int _
  | runPending =>
      exact pairs_then (pairs_runPending (P.eager hb)) fun ran _ => pairs_value (Value.only_int _)
  | cancelled => exact pairs_readRest (fun _ _ => rfl) fun _ => Value.only_bool _
  | cancel =>
      refine pairs_then (M := fun _ => True) (pairs_readRest (fun _ _ => rfl) fun _ => trivial)
        fun t? _ => ?_
      split
      · exact pairs_then (pairs_modifyRest (fun _ _ => rfl) fun _ => rfl) fun _ _ =>
          pairs_value (Value.only_bool _)
      · exact pairs_value (Value.only_bool _)
  | cancelAll =>
      exact pairs_then (pairs_modifyRest (fun _ _ => rfl) fun _ => rfl) fun _ _ =>
        pairs_value Value.only_nil
  | status =>
      refine pairs_readRest (fun _ _ => rfl) fun s => ?_
      split
      · exact Value.only_str _
      · exact Value.only_nil
  | raiseCancelled => exact pairs_raise trivial
  | throwAt | panic | invoke => exact pairs_runHost (HostFunction.only _ hargs)

theorem pairs_callBody {config : Config} {f : FunctionRef} {args : List Value} (hf : P.fn f)
    (hargs : ∀ v ∈ args, v.Only P.fn) :
    PairsRaise P n (Value.Only P.fn) (callBody config f args) (callBody config f args) := by
  cases f with
  | host id name => exact pairs_runHost ((config.host.function id).only hargs)
  | recorder =>
      exact pairs_then (pairs_modifyRest (fun _ _ => rfl) fun _ => rfl) fun _ _ =>
        pairs_value Value.only_nil
  | builtin b => exact pairs_callBuiltin hf hargs
  | closure id name =>
      refine pairs_readThen fun s s' twin => ?_
      have same : Option.Rel (Closure.Pairs (P.scope s.heap.size) P.rule) s.closures[id]?
          s'.closures[id]? := by
        cases twin with
        | intro h' twin room => exact P.captured id name twin hf
      generalize s.closures[id]? = c, s'.closures[id]? = c' at same
      cases same with
      | none => exact pairs_raise trivial
      | some same => exact pairs_callClosure same hargs

/-! ## All bodies -/

/-- Paired questions are answered in lockstep. -/
theorem pairs_bodies (P : Pairing) (config : Config) {q q' : Request} {s s' : State}
    (asked : P.Asks q s q' s') :
    Resumption.Lockstep P.Asks P.Answers (Interpreter.bodies config q s)
      (Interpreter.bodies config q' s') (P.Answers q s q' s') := by
  obtain ⟨question, twin⟩ := asked
  cases question with
  | evaluate obeys paired => exact pairs_evaluateBody paired obeys s s' twin
  | call hf hargs => exact pairs_callBody hf hargs s s' twin
  | execute obeys paired => exact pairs_executeBody paired obeys s s' twin
  | block obeys paired => exact pairs_blockBody paired obeys s s' twin
  | iterate obeys paired => exact pairs_iterateBody obeys paired s s' twin
  | work all => exact pairs_workBody all _ s s' twin
  | drain all => exact lockstep_drainBody all _ twin
  | await => exact ⟨twin, trivial⟩

theorem pairs_runScript {config : Config} {script : Block}
    (obeys : BlockObeys P.rule .function script) (paired : P.own n i i') :
    PairsError P n (fun _ => True) (runScript config script i) (runScript config script i') := by
  refine pairs_entered (pairs_then (pairs_runBlock obeys paired) fun c hc => ?_) fun _ => trivial
  unfold scriptResult
  split
  · exact pairs_value trivial
  · exact pairs_value trivial
  · exact pairs_raise trivial
  · exact pairs_raise trivial
  · exact pairs_raise trivial

end Exec

variable {P : Pairing} {n : Nat} {config : Config} {s s' t t' : State} {ε α : Type} {M : α → Prop}
  {bad : ε → Prop} {x x' : Exec ε α} {o : Outcome ε α}

/-- Where the first of two paired runs ends, the second one ends with the same outcome. -/
theorem Exec.Pairs.runs (h : Exec.Pairs P n (Same M) bad x x') (twin : P.Twin n s s')
    (run : Runs config x s o t) : ∃ t', Runs config x' s' o t' ∧ P.Twin n t t' := by
  obtain ⟨o', t', run', twin', same⟩ := Resumption.Lockstep.evaluates
    (fun _ _ _ _ asked => Exec.pairs_bodies P config asked) run (h s s' twin)
  rw [same.eq] at run'
  exact ⟨t', run', twin'⟩

/-- Where the second of two paired runs ends, the first one ends with the same outcome. -/
theorem Exec.Pairs.runs_left (h : Exec.Pairs P n (Same M) bad x x') (twin : P.Twin n s s')
    (run : Runs config x' s' o t') : ∃ t, Runs config x s o t ∧ P.Twin n t t' := by
  obtain ⟨o', t, run', twin', same⟩ := Resumption.Lockstep.evaluates_right
    (fun _ _ _ _ asked => Exec.pairs_bodies P config asked) (h s s' twin) run
  rw [← same.eq] at run'
  exact ⟨t, run', twin'⟩

/-- Paired computations have the same outcome, in paired states. -/
theorem Exec.Pairs.sameEnds (h : Exec.Pairs P n (Same M) bad x x') (twin : P.Twin n s s') :
    Exec.SameEnds config x s x' s' fun o t o' t' => o' = o ∧ P.Twin n t t' where
  forth o t run := by
    obtain ⟨t', run', twin'⟩ := h.runs twin run
    exact ⟨o, t', run', rfl, twin'⟩
  back o t' run' := by
    obtain ⟨t, run, twin'⟩ := h.runs_left twin run'
    exact ⟨o, t, run, rfl, twin'⟩

end StatementEngine
