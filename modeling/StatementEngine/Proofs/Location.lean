import StatementEngine.Proofs.Invariance
import StatementEngine.Proofs.Run.Asked
import StatementEngine.Proofs.Run.Reached
import StatementEngine.Proofs.Run.Strict
import StatementEngine.Proofs.SignalConfinement

/-!
# Errors and throws happen somewhere

**What goes wrong is located, and at a place of the trees that are run.** Expressions know no
positions, so what they raise has none or one that it got inside of a call. The statement, branch,
case or target around fills the gap, and the error of a statement or a block always has a position.
The contract `location` says that all positions are in a set, given that trees and captured
functions bear only positions of the set.

A function of the host may throw at a position that stands nowhere. So this is about runs in which
none does (`Exec.HostThrowsNowhere`); the contract is honored by every other question, and by
closed questions in any case, since nothing that goes wrong in a task leaves it.

The main result is `located_of_runs`.
-/

namespace StatementEngine

variable {P : Position → Prop}

/-! ## Being located -/

/-- The error has a position of the set. -/
def EngineError.IsIn (P : Position → Prop) (e : EngineError) : Prop :=
  ∃ p, e.position = some p ∧ P p

/-- The failure has a position of the set. -/
def Raise.IsIn (P : Position → Prop) (r : Raise) : Prop := ∃ p, r.position? = some p ∧ P p

/-- The position of the failure is of the set, if it has one. -/
def Raise.MayBeIn (P : Position → Prop) (r : Raise) : Prop := ∀ p, r.position? = some p → P p

/-- A throw was raised at a position of the set. -/
def Signal.IsIn (P : Position → Prop) : Signal → Prop
  | .thrown _ p => P p
  | _ => True

theorem EngineError.IsIn.locate (e : EngineError) {p : Position} (hp : P p) : (e.locate p).IsIn P :=
  ⟨p, rfl, hp⟩

theorem EngineError.IsIn.failed {e : EngineError} (h : e.IsIn P) : (Raise.failed e).IsIn P := h

theorem Raise.isIn_thrown (v : Value) {p : Position} (hp : P p) : (thrown v (some p)).IsIn P :=
  ⟨p, rfl, hp⟩

theorem Raise.IsIn.mayBeIn {r : Raise} (h : r.IsIn P) : r.MayBeIn P := by
  obtain ⟨p, hp, inP⟩ := h
  intro q hq
  obtain rfl : p = q := Option.some.inj (hp.symm.trans hq)
  exact inP

namespace Raise

theorem mayBeIn_nowhere {r : Raise} (h : r.position? = none) : r.MayBeIn P := by
  intro p hp
  rw [h] at hp
  cases hp

namespace MayBeIn

theorem fillPosition {r : Raise} {p : Position} (h : r.MayBeIn P) (hp : P p) :
    (r.fillPosition p).MayBeIn P := by
  intro q hq
  cases r with
  | thrown v at? =>
      cases at? with
      | none =>
          cases hq
          exact hp
      | some p' => exact h q hq
  | failed e =>
      obtain ⟨kind, at?⟩ := e
      cases at? with
      | none =>
          cases hq
          exact hp
      | some p' => exact h q hq

theorem thrown {v : Value} {at? : Option Position} {p : Position}
    (h : (Raise.thrown v at?).MayBeIn P) (hp : P p) : (Signal.thrown v (at?.getD p)).IsIn P := by
  cases at? with
  | none => exact hp
  | some q => exact h q rfl

theorem failed {e : EngineError} {p : Position} (h : (Raise.failed e).MayBeIn P) (hp : P p) :
    (e.fillPosition p).IsIn P := by
  refine ⟨_, e.fillPosition_position p, ?_⟩
  obtain ⟨kind, at?⟩ := e
  cases at? with
  | none => exact hp
  | some q => exact h q rfl

end MayBeIn

end Raise

/-- Trees and functions that bear only positions of a set are run. -/
def location (P : Position → Prop) : Contract where
  requires q s := q.Obeys (.positions P) ∧ s.Obeys (.positions P)
  promises
    | .evaluate .., _, o, t => t.Obeys (.positions P) ∧ o.Within (fun _ => True) (Raise.MayBeIn P)
    | .call .., _, o, t => t.Obeys (.positions P) ∧ o.Within (fun _ => True) (Raise.MayBeIn P)
    | .execute .., _, o, t =>
      t.Obeys (.positions P) ∧ o.Within (Signaling (Signal.IsIn P)) (EngineError.IsIn P)
    | .block .., _, o, t =>
      t.Obeys (.positions P) ∧ o.Within (Signaling (Signal.IsIn P)) (EngineError.IsIn P)
    | .iterate _, _, o, t =>
      t.Obeys (.positions P) ∧ o.Within (Signaling (Signal.IsIn P)) (Raise.MayBeIn P)
    | .work _, _, _, t => t.Obeys (.positions P)
    | .drain _, _, _, t => t.Obeys (.positions P)
    | .await _, _, _, t => t.Obeys (.positions P)

/-- What a call makes of its body depends on the signals of the body, so both contracts go
together. -/
abbrev whereabouts (P : Position → Prop) : Contract := confinement.and (location P)

/-- Called with these arguments, the function of the host raises nothing at a position of its own. -/
def FunctionRef.ThrowsNowhere (config : Config) (args : List Value) (f : FunctionRef) : Prop :=
  ∀ h ∈ f.hostFunction? config, ∀ r own, (h.run args).ComesTo (.raise r own) → r.position? = none

namespace Exec

/-- No function of the host that the computation calls raises anything at a position of its own. What
the functions that it calls raise is not its own. -/
def HostThrowsNowhere (config : Config) (x : Exec ε α) (s : State) : Prop :=
  ∀ before f args u,
    Resumption.Reaches (Interpreter.bodies config) Request.Open (x s) before (.call f args) u →
    f.ThrowsNowhere config args

/-- A run that has ended without calling a function of the host. -/
theorem hostThrowsNowhere_of_asks {config : Config} {x : Exec ε α} {s t : State}
    {asked : Questions} {o : Outcome ε α} (run : Asks config x s asked o t)
    (quiet : ∀ q ∈ asked, ∀ f args, q.1 = .call f args → f.hostFunction? config = none) :
    x.HostThrowsNowhere config s := by
  intro before f args u reached h known
  rw [quiet _ (reached.mem_trace run) f args rfl] at known
  cases known

section Questions

theorem located_evaluate {e : Expr} (h : e.Obeys (.positions P)) (scope : ScopeId) :
    Meets (whereabouts P) (State.Obeys (.positions P)) (fun _ => True) (Raise.MayBeIn P)
      (evaluate e scope) :=
  meets_evaluate fun _ hs => ⟨⟨trivial, h, hs⟩, fun _ _ ho => ho.2⟩

theorem located_call (f : FunctionRef) (args : List Value) :
    Meets (whereabouts P) (State.Obeys (.positions P)) (fun _ => True) (Raise.MayBeIn P)
      (call f args) :=
  meets_call fun _ hs => ⟨⟨trivial, trivial, hs⟩, fun _ _ ho => ho.2⟩

theorem located_execute {stmt : Stmt} {cx : Context} (h : stmt.Obeys (.positions P) cx.site)
    (scope : ScopeId) :
    Meets (whereabouts P) (State.Obeys (.positions P)) (Signaling (Signal.IsIn P))
      (EngineError.IsIn P) (execute stmt scope cx) :=
  meets_execute fun _ hs => ⟨⟨trivial, h, hs⟩, fun _ _ ho => ho.2⟩

theorem located_block {body : Block} {cx : Context} (h : BlockObeys (.positions P) cx.site body)
    (scope : ScopeId) :
    Meets (whereabouts P) (State.Obeys (.positions P)) (Signaling (Signal.IsIn P))
      (EngineError.IsIn P) (runBlock body scope cx) :=
  meets_runBlock fun _ hs => ⟨⟨trivial, h, hs⟩, fun _ _ ho => ho.2⟩

/-- The body of a call also keeps the signals of loops to itself. -/
theorem located_callee {body : Block} (h : BlockObeys (.positions P) .function body)
    (scope : ScopeId) :
    Meets (whereabouts P) (State.Obeys (.positions P))
      (Signaling fun g => Context.function.Lets g ∧ g.IsIn P) (EngineError.IsIn P)
      (runBlock body scope .function) := by
  refine meets_runBlock fun _ hs => ⟨⟨trivial, h, hs⟩, fun o t ho => ⟨ho.2.1, ?_⟩⟩
  cases o with
  | ok c => exact ⟨ho.1, ho.2.2⟩
  | raised e => exact ho.2.2
  | panicked m => trivial

theorem located_iterate {loop : LoopHead} (h : (Request.iterate loop).Obeys (.positions P)) :
    Meets (whereabouts P) (State.Obeys (.positions P)) (Signaling (Signal.IsIn P))
      (Raise.MayBeIn P) (iterate loop) :=
  meets_iterate fun _ hs => ⟨⟨trivial, h, hs⟩, fun _ _ ho => ho.2⟩

theorem located_drain {bad : ε → Prop} :
    Meets (whereabouts P) (State.Obeys (.positions P)) (fun _ => True) bad
      (drain : Exec ε Nat) :=
  meets_drain fun _ hs => ⟨⟨trivial, trivial, hs⟩, fun _ _ ho => ⟨ho.2, trivial⟩⟩

end Questions

theorem located_plain (k : ErrorKind) (_ : k.IsPlain) : (Raise.ofKind k).MayBeIn P :=
  Raise.mayBeIn_nowhere rfl

/-! ## Statements and blocks -/

/-- What a loop hands on has the position that it had. -/
theorem isIn_of_handOn {g g' : Signal} (h : g.IsIn P) (hg : g.afterIteration = .handOn g') :
    g'.IsIn P := by
  cases g with
  | returned vs | thrown v p =>
      cases hg
      exact h
  | none | breakLoop | continueLoop => cases hg

theorem located_bounds :
    Bounds (fun _ => Signal.IsIn P) (EngineError.IsIn P) (Raise.MayBeIn P) where
  normal _ := trivial
  handOn _ _ _ := isIn_of_handOn
  lift _ h := h.failed.mayBeIn
  plain := located_plain

theorem located_jumps {p : Position} (hp : P p) (form : Form) (cx : Context) :
    JumpsMeet (fun _ => Signal.IsIn P) (EngineError.IsIn P) (Raise.MayBeIn P) p form cx := by
  have here : ∀ k, (Raise.failed ((EngineError.ofKind k).locate p)).MayBeIn P :=
    fun k => (EngineError.IsIn.locate _ hp).failed.mayBeIn
  constructor
  · intro _
    split
    · trivial
    · exact here _
  · intro _
    split
    · trivial
    · exact here _
  · intro _ _
    split
    · exact fun _ => trivial
    · exact here _
  · exact fun _ _ _ => hp
  · exact fun _ _ _ _ _ _ => .locate _ hp

theorem located_executeBody {stmt : Stmt} {cx : Context} (h : stmt.Obeys (.positions P) cx.site)
    (scope : ScopeId) :
    Meets (whereabouts P) (State.Obeys (.positions P)) (Signaling (Signal.IsIn P))
      (EngineError.IsIn P) (executeBody stmt scope cx) := by
  have marks : ∀ p ∈ stmt.position :: stmt.form.marks, P p := h.here
  have here : P stmt.position := marks _ List.mem_cons_self
  have form : Meets (whereabouts P) (State.Obeys (.positions P)) (Signaling (Signal.IsIn P))
      (Raise.MayBeIn P) (runForm stmt.position stmt.form scope cx) :=
    meets_runForm (stable_obeys.at scope) located_bounds
      (fun q hq _ hr => hr.fillPosition (marks q hq)) (located_jumps here stmt.form cx) {
      evaluated := fun e he => located_evaluate (h.evaluated he) scope
      bodies := fun b hb => blockMeets_inner fun child _ => located_block (h.bodies hb) child
      start := fun first hfirst child => meets_inner fun _ => located_execute (h.start hfirst) child
      round := fun c u b hround => ⟨located_iterate (h.iterate hround scope),
        fun child => meets_inner fun _ => located_iterate (h.iterate hround child)⟩
      declared := fun _ _ _ _ hs => hs }
  exact meets_located form (fun _ _ hr => hr.thrown here) fun _ hr => hr.failed here

theorem located_iterateBody {loop : LoopHead} (h : (Request.iterate loop).Obeys (.positions P)) :
    Meets (whereabouts P) (State.Obeys (.positions P)) (Signaling (Signal.IsIn P))
      (Raise.MayBeIn P) (iterateBody loop) :=
  meets_iterateBody trivial (fun _ he => he.failed.mayBeIn) located_plain
    (fun _ _ => isIn_of_handOn) (stable_obeys.at loop.scope)
    (fun e he => located_evaluate (h.1 e he) _)
    (fun e he => located_evaluate (h.2.1 e he) _)
    (blockMeets_inner fun child _ => located_block h.2.2 child) (located_iterate h)

theorem located_blockBody {body : Block} {cx : Context}
    (h : BlockObeys (.positions P) cx.site body) (scope : ScopeId) :
    Meets (whereabouts P) (State.Obeys (.positions P)) (Signaling (Signal.IsIn P))
      (EngineError.IsIn P) (blockBody body scope cx) := by
  refine meets_runFrom trivial (fun stmt hstmt => ?_) fun stmt hstmt =>
    located_execute (h stmt hstmt) scope
  exact .locate _ ((h stmt hstmt).here _ List.mem_cons_self)

/-! ## Calls -/

theorem located_callBody {config : Config} {f : FunctionRef} {args : List Value}
    (fit : f.ThrowsNowhere config args) :
    Meets (whereabouts P) (State.Obeys (.positions P)) (fun _ => True) (Raise.MayBeIn P)
      (callBody config f args) := by
  refine meets_callBody located_plain (fun h hf => ?_) located_drain stable_obeys.toSteady
    (fun _ hs => hs) fun c hc => ?_
  · exact meets_runHost (fun r own comes => Raise.mayBeIn_nowhere (fit h hf r own comes))
      fun g vs _ _ => located_call g vs
  · exact meets_callClosure located_plain (fun _ he => he.failed.mayBeIn)
      (fun v _ h => (Raise.isIn_thrown v h.2).mayBeIn)
      (fun h => absurd h.1 not_lets_break) (fun h => absurd h.1 not_lets_continue)
      (fun _ hs _ => hs) (fun _ ht => ht) stable_obeys fun frame _ => located_callee hc frame

end Exec

/-! ## Runs -/

variable {config : Config} {s t : State}

/-- Every question but a throw of the host is answered as the contract says, if what it asks is. -/
theorem location_ensures {q : Request} (opened : q.Open)
    (fit : ∀ f args, q = .call f args → f.ThrowsNowhere config args)
    (h : (whereabouts P).requires q s) :
    Resumption.Ensures (whereabouts P).requires (whereabouts P).promises
      (Interpreter.bodies config q s) ((whereabouts P).promises q s) := by
  refine (confinement_honored config q s trivial).and ?_ fun _ _ _ _ h => h.1
  obtain ⟨-, hq, hs⟩ := h
  cases q with
  | evaluate e scope =>
      exact Exec.meets_evaluateBody Exec.located_plain (stable_obeys.at scope)
        (fun v => Raise.mayBeIn_nowhere rfl)
        (fun o ho => Exec.located_evaluate (hq.operand ho) scope)
        Exec.located_call (fun literal h => Exec.obeys_capture (h ▸ hq).body) s hs
  | call f args => exact Exec.located_callBody (fit f args rfl) s hs
  | execute stmt scope cx => exact Exec.located_executeBody hq scope s hs
  | block body scope cx => exact Exec.located_blockBody hq scope s hs
  | iterate loop => exact Exec.located_iterateBody hq s hs
  | work w | drain ran | await what => exact opened.elim

/-- Whatever happens in the queue, it leaves functions that bear only positions of the set. -/
theorem location_closed {q : Request} {a : Answer q} (closed : ¬ q.Open)
    (h : (whereabouts P).requires q s)
    (answered : Resumption.Evaluates (Interpreter.bodies config) (Interpreter.bodies config q s)
      a t) :
    (whereabouts P).promises q s a t := by
  have kept : t.Obeys (.positions P) :=
    (invariance_honored invariant_obeys config).answer h.2 answered
  refine ⟨(confinement_honored config).answer trivial answered, ?_⟩
  cases q with
  | evaluate | call | execute | block | iterate => exact absurd trivial closed
  | work w | drain ran | await what => exact kept

/-- What a computation meets holds of its runs, if no function of the host raises anything at a
position of its own. -/
theorem Exec.Meets.located {ok : α → Prop} {bad : ε → Prop} {x : Exec ε α} {o : Outcome ε α}
    (hx : Exec.Meets (whereabouts P) (State.Obeys (.positions P)) ok bad x)
    (hs : s.Obeys (.positions P)) (silent : x.HostThrowsNowhere config s)
    (h : Runs config x s o t) : o.Within ok bad := by
  have fit : ∀ before q u,
      Resumption.Reaches (Interpreter.bodies config) Request.Open (x s) before q u →
      ∀ f args, q = .call f args → f.ThrowsNowhere config args := by
    intro before q u reached f args hq
    subst hq
    exact silent before f args u reached
  exact (h.ensures_of_reached (fun q u hq opened hfit => location_ensures opened hfit hq)
    (fun q u a t hq closed answered => location_closed closed hq answered) fit (hx s hs)).2

/-! ## Positions of the trees -/

/-- The computation is refused as a call, since the limit is reached: it asks nothing and leaves the
state as it is, and its error has no position. -/
def Exec.Refuses (config : Config) (x : Exec ε α) (refuse : EngineError → ε) (s : State) (e : ε) :
    Prop :=
  ∃ max, config.maxCallDepth = some max ∧ max ≤ s.callDepth ∧
    e = refuse (.ofKind (.recursionLimit max)) ∧ Asks config x s [] (.raised e) s

/-- A call that is not refused ends as its computation does, one call deeper. -/
theorem Exec.Meets.located_entered {ok : α → Prop} {bad : ε → Prop} {x : Exec ε α}
    {refuse : EngineError → ε} {e : ε}
    (hx : Exec.Meets (whereabouts P) (State.Obeys (.positions P)) ok bad x)
    (hs : s.Obeys (.positions P))
    (silent : (Exec.entered config.maxCallDepth refuse x).HostThrowsNowhere config s)
    (h : Runs config (Exec.entered config.maxCallDepth refuse x) s (.raised e) t) :
    bad e ∨ (Exec.entered config.maxCallDepth refuse x).Refuses config refuse s e := by
  let deeper : Exec ε α := fun s => x.thenAlways
    (fun t => { t with callDepth := t.callDepth - 1 }) { s with callDepth := s.callDepth + 1 }
  rcases Exec.entered_cases config.maxCallDepth refuse x s with
    ⟨max, hmax, hle, refusal⟩ | ⟨-, entry⟩
  · unfold Runs at h
    rw [refusal] at h
    obtain ⟨he, -⟩ := Resumption.evaluates_done_iff.mp h
    cases he
    refine Or.inr ⟨max, hmax, hle, rfl, ?_⟩
    unfold Asks
    rw [refusal]
    exact .done _ _
  · have hdeeper : Exec.Meets (whereabouts P) (State.Obeys (.positions P)) ok bad deeper :=
      Exec.meets_between hx (fun _ hs => hs) fun _ _ _ ht => ht
    have silent' : deeper.HostThrowsNowhere config s := by
      unfold Exec.HostThrowsNowhere at silent ⊢
      rwa [entry] at silent
    have run : Runs config deeper s (.raised e) t := by
      unfold Runs at h ⊢
      rwa [entry] at h
    exact Or.inl (hdeeper.located hs silent' run)

/-- The positions of a tree that is run, and of the functions that have been captured before. -/
def State.Positions (s : State) (tree : Position → Prop) (p : Position) : Prop := tree p ∨ s.Bears p

theorem State.obeys_around (s : State) (tree : Position → Prop) :
    s.Obeys (.positions (s.Positions tree)) :=
  State.obeys_positions fun _ h => Or.inr h

theorem State.callee_obeys (s : State) (body : Block) :
    BlockObeys (.positions (s.Positions (BlockBears body))) Context.function.site body :=
  blockObeys_positions fun _ h => Or.inl h

/-- **Every error and every throw is located, and only where something stands.** The error of a
statement or of a block has a position, which stands in the tree that is run or in a function that
was captured before, and so has every throw. The error of a script and of a call has none only if
the script or the call is refused. All of this is about runs in which no function of the host throws
at a position of its own. -/
theorem located_of_runs (config : Config) (s : State) :
    (∀ stmt scope cx o t, (Exec.execute stmt scope cx).HostThrowsNowhere config s →
      Runs config (Exec.execute stmt scope cx) s o t →
      o.Within (Signaling (Signal.IsIn (s.Positions stmt.Bears)))
        (EngineError.IsIn (s.Positions stmt.Bears))) ∧
    (∀ body scope cx o t, (Exec.runBlock body scope cx).HostThrowsNowhere config s →
      Runs config (Exec.runBlock body scope cx) s o t →
      o.Within (Signaling (Signal.IsIn (s.Positions (BlockBears body))))
        (EngineError.IsIn (s.Positions (BlockBears body)))) ∧
    (∀ script scope e t, (Exec.runScript config script scope).HostThrowsNowhere config s →
      Runs config (Exec.runScript config script scope) s (.raised e) t →
      e.IsIn (s.Positions (BlockBears script)) ∨
        (Exec.runScript config script scope).Refuses config id s e) ∧
    ∀ body scope r t, (Exec.callBlock config body scope).HostThrowsNowhere config s →
      Runs config (Exec.callBlock config body scope) s (.raised r) t →
      r.IsIn (s.Positions (BlockBears body)) ∨
        (Exec.callBlock config body scope).Refuses config .failed s r := by
  refine ⟨fun stmt scope cx o t silent h => ?_, fun body scope cx o t silent h => ?_,
    fun script scope e t silent h => ?_, fun body scope r t silent h => ?_⟩
  · have obeys : stmt.Obeys (.positions (s.Positions stmt.Bears)) cx.site :=
      Stmt.obeys_positions fun _ h => Or.inl h
    exact (Exec.located_execute obeys scope).located (s.obeys_around _) silent h
  · have obeys : BlockObeys (.positions (s.Positions (BlockBears body))) cx.site body :=
      blockObeys_positions fun _ h => Or.inl h
    exact (Exec.located_block obeys scope).located (s.obeys_around _) silent h
  · have run := Exec.meets_bind (Exec.located_callee (s.callee_obeys script) scope)
      fun c hc => Exec.meets_scriptResult (fun v p h => EngineError.IsIn.locate _ h.2)
        (fun h => absurd h.1 not_lets_break) (fun h => absurd h.1 not_lets_continue) hc
    exact run.located_entered (s.obeys_around _) silent h
  · have failed := Exec.meets_failing
      (Exec.located_callee (s.callee_obeys body) scope) fun _ => EngineError.IsIn.failed
    have run := Exec.meets_bind failed
      fun c hc => Exec.meets_callResult (fun v p h => Raise.isIn_thrown v h.2)
        (fun h => absurd h.1 not_lets_break) (fun h => absurd h.1 not_lets_continue) hc
    exact run.located_entered (s.obeys_around _) silent h

/-- An assignment fails inside of a function that the script calls, and the error is where the
target of the assignment stands. -/
theorem located_of_runs_target :
    let body : Block := [⟨⟨2, 3⟩, .assign [.place ⟨2, 7⟩ (.literal .nil)] .assign [.literal .nil]⟩]
    let script : Block := [⟨⟨1, 1⟩, .expr (.call (.function ⟨"f", [], body⟩) [])⟩]
    let s := (State.initial .deferred .log).newRoot
    ∃ e t, (Exec.runScript .standard script s.1).HostThrowsNowhere .standard s.2 ∧
      Runs .standard (Exec.runScript .standard script s.1) s.2 (.raised e) t ∧
      e.position = some ⟨2, 7⟩ ∧ s.2.Positions (BlockBears script) ⟨2, 7⟩ := by
  intro body script s
  -- the questions are nested: script, statement, call, and then the body of the function
  obtain ⟨asked, t, run, quiet⟩ : ∃ asked t,
      Asks .standard (Exec.runScript .standard script s.1) s.2 asked
        (.raised ⟨.invalidOperation "invalid assignment target", some ⟨2, 7⟩⟩) t ∧
      ∀ q ∈ asked, ∀ f args, q.1 = .call f args → f.hostFunction? .standard = none :=
    ⟨_, _, .ask (.ask (.ask (.ask (.done _ _) (.ask
      (.ask (.ask (.ask (.done _ _) (.done _ _)) (.done _ _)) (.done _ _))
      (.done _ _))) (.done _ _)) (.done _ _)) (.done _ _),
      by simp [FunctionRef.hostFunction?]⟩
  have silent := Exec.hostThrowsNowhere_of_asks run quiet
  have found := (located_of_runs .standard s.2).2.2.1 script s.1 _ t silent run.runs
  refine ⟨_, t, silent, run.runs, rfl, ?_⟩
  rcases found with ⟨p, hp, inTree⟩ | ⟨max, -, -, refusal, -⟩
  · cases hp
    exact inTree
  · cases refusal

end StatementEngine
