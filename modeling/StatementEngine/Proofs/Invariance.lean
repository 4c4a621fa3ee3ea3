import StatementEngine.Proofs.Contract.Keeping
import StatementEngine.Proofs.Lexical.Positions

/-!
# Invariants of whole runs

**What every single step keeps, every run keeps**, at each question that it comes to and at its end
(`invariance_honored`). A step is something that the engine does to the state between two questions;
what function literals may be captured is given by a rule that the trees of the run obey.

That the captured functions obey the rule themselves is such an invariant (`invariant_obeys`).
-/

namespace StatementEngine

variable {R : Rule} {I : State → Prop}

/-- Every step of a run over trees that obey the rule keeps the property. -/
structure Invariant (R : Rule) (I : State → Prop) : Prop where
  stable : Stable I fun _ => True
  declare : ∀ s scope name v, I s → I { s with scopes := s.scopes.define scope name v }
  capture : ∀ s literal scope, BlockObeys R .function literal.body → I s →
    I { s with closures := s.closures.push ⟨literal, scope⟩ }
  callDepth : ∀ s callDepth, I s → I { s with callDepth }
  running : ∀ s running, I s → I { s with running }
  /-- What is called obeys the rule. -/
  known : ∀ s, I s → s.Obeys R

/-- Trees that obey the rule are run in states that have the property, and such states are left. -/
def invariance (R : Rule) (I : State → Prop) : Contract where
  requires q s := q.Obeys R ∧ I s
  promises _ _ _ t := I t

theorem invariance_lets {q : Request} (h : q.Obeys R) : (invariance R I).Lets I q :=
  fun _ hs => ⟨⟨h, hs⟩, fun _ _ ht => ⟨ht, trivial⟩⟩

/-- **Every run keeps its invariants.** -/
theorem invariance_honored (hI : Invariant R I) (config : Config) :
    (invariance R I).Honored config := by
  intro q s required
  obtain ⟨hq, hs⟩ := required
  -- however the body ends, the property holds
  have close : ∀ {α ε : Type} {x : Exec ε α}, Exec.Keeps (invariance R I) I x →
      Resumption.Ensures (invariance R I).requires (invariance R I).promises (x s) fun _ t => I t :=
    fun h => (h s hs).mono fun _ _ ht => ht.1
  cases q with
  | evaluate e scope =>
      refine close (Exec.keeps_evaluateBody (hI.stable.at scope) (fun o ho => ?_) (fun f args => ?_)
        fun literal h t ht => ?_)
      · exact invariance_lets (hq.operand ho)
      · exact invariance_lets trivial
      · subst h
        exact hI.capture t literal scope hq.body ht
  | call f args =>
      refine close (Exec.keeps_callBody (fun t ht _ => hI.callDepth t _ ht)
        (fun t ht => hI.callDepth t _ ht) hI.stable hI.known (fun g vs _ => ?_) ?_
        fun c hc child _ => ?_)
      · exact invariance_lets trivial
      · exact invariance_lets trivial
      · exact invariance_lets hc
  | execute stmt scope cx =>
      refine close (Exec.keeps_executeBody hI.stable (fun e he => ?_) (fun b hb child _ => ?_)
        (fun first hfirst child _ => ?_) (fun c u b h i => ?_) fun name _ t v ht => ?_)
      · exact invariance_lets (hq.evaluated he)
      · exact invariance_lets (hq.bodies hb)
      · exact invariance_lets (hq.start hfirst)
      · exact invariance_lets (hq.iterate h i)
      · exact hI.declare t scope name v ht
  | block body scope cx =>
      exact close (Exec.keeps_blockBody fun stmt hstmt => invariance_lets (hq stmt hstmt))
  | iterate loop =>
      refine close (Exec.keeps_iterateBody hI.stable (fun e he => ?_) (fun e he => ?_)
        (fun child _ => ?_) ?_)
      · exact invariance_lets (hq.1 e he)
      · exact invariance_lets (hq.2.1 e he)
      · exact invariance_lets hq.2.2
      · exact invariance_lets hq
  | work w =>
      exact close (Exec.keeps_workBody hI.stable.toSteady (fun _ _ => invariance_lets trivial)
        (fun _ => invariance_lets trivial) (invariance_lets trivial))
  | drain ran =>
      refine Exec.ensures_drainBody hI.stable.toSteady hs (fun job => ?_) (invariance_lets trivial)
      exact Exec.meets_runJob hI.stable.toSteady (Exec.keeps_doWork (invariance_lets trivial))
        (fun t ht => hI.running t _ ht) fun _ t _ ht => hI.running t _ ht
  | await what => exact hs

theorem invariant_obeys : Invariant R (State.Obeys R) where
  stable := stable_obeys
  declare _ _ _ _ h := h
  capture _ _ scope h hs := hs.capture h scope
  callDepth _ _ h := h
  running _ _ h := h
  known _ h := h

end StatementEngine
