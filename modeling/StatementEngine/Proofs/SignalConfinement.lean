import StatementEngine.Proofs.Contract.Calls
import StatementEngine.Proofs.Contract.Forms

/-!
# Signals stay where they belong

A signal leaves a statement or a block only if the context lets it (`Context.Lets`): `breakLoop` and
`continueLoop` inside a loop, `returned` inside a call. The contract `confinement` says so of every
statement and block, and of a loop with the context outside all loops, since it consumes what its
body breaks off with. Together with it goes what can be said about the errors of modules: the
only signal that such an error can name is a throw.

The main result is `signals_confined`.
-/

namespace StatementEngine

/-- The signals that loops consume. -/
def Signal.OfLoops (g : Signal) : Prop := g = .breakLoop ∨ g = .continueLoop

namespace Context

/-- The signal may leave a statement that runs under the context. -/
def Lets (cx : Context) : Signal → Prop
  | .breakLoop | .continueLoop => cx.inLoop = true
  | .returned _ => cx.callable = true
  | .none | .thrown .. => True

/-- The context around all loops of a body. -/
def outsideLoops (cx : Context) : Context := { cx with loopDepth := 0 }

@[simp] theorem outsideLoops_enterLoop (cx : Context) :
    cx.enterLoop.outsideLoops = cx.outsideLoops := rfl

theorem lets_of_outsideLoops {cx : Context} {g : Signal} (h : cx.outsideLoops.Lets g) :
    cx.Lets g := by
  cases g with
  | breakLoop | continueLoop => simp [Lets, outsideLoops, inLoop] at h
  | returned vs => exact h
  | none | thrown v p => trivial

theorem inLoop_of_lets {cx : Context} {g : Signal} (h : cx.Lets g) (hg : g.OfLoops) :
    cx.inLoop = true := by
  rcases hg with rfl | rfl
  · exact h
  · exact h

theorem not_ofLoops {cx : Context} {g : Signal} (h : cx.Lets g) (hcx : cx.inLoop = false) :
    ¬ g.OfLoops := by
  intro hg
  rw [inLoop_of_lets h hg] at hcx
  cases hcx

/-- What a loop hands on has nothing to do with loops. -/
theorem lets_outsideLoops_of_handOn {cx : Context} {g g' : Signal} (h : cx.Lets g)
    (hg : g.afterIteration = .handOn g') : cx.outsideLoops.Lets g' := by
  cases g with
  | returned vs =>
      cases hg
      exact h
  | thrown v p =>
      cases hg
      trivial
  | none | breakLoop | continueLoop => cases hg

end Context

/-- An error of a module names no signal but a throw. -/
def ErrorKind.NamesThrow : ErrorKind → Prop
  | moduleEscape _ signal => signal = .thrown
  | _ => True

def EngineError.NamesThrow (e : EngineError) : Prop := e.kind.NamesThrow

def Raise.NamesThrow : Raise → Prop
  | thrown .. => True
  | failed e => e.NamesThrow

theorem ErrorKind.IsPlain.namesThrow {k : ErrorKind} (h : k.IsPlain) : k.NamesThrow := by
  cases k <;> trivial

theorem Raise.OfOperation.namesThrow {r : Raise} (h : r.OfOperation) : r.NamesThrow := by
  cases r with
  | thrown v at? => trivial
  | failed e => exact (ErrorKind.OfOperation.isPlain h).namesThrow

theorem Raise.NamesThrow.fillPosition {r : Raise} (h : r.NamesThrow) (p : Position) :
    (r.fillPosition p).NamesThrow := by
  cases r with
  | thrown v at? => trivial
  | failed e => exact h

/-- Signals are confined to their contexts, and errors of modules name throws. -/
def confinement : Contract where
  requires _ _ := True
  promises
    | .evaluate .., _, o, _ => o.Within (fun _ => True) Raise.NamesThrow
    | .call .., _, o, _ => o.Within (fun _ => True) Raise.NamesThrow
    | .execute _ _ cx, _, o, _ => o.Within (Signaling cx.Lets) EngineError.NamesThrow
    | .block _ _ cx, _, o, _ => o.Within (Signaling cx.Lets) EngineError.NamesThrow
    | .iterate loop, _, o, _ =>
      o.Within (Signaling loop.context.outsideLoops.Lets) Raise.NamesThrow
    | .work _, _, _, _ => True
    | .drain _, _, _, _ => True
    | .await _, _, _, _ => True

namespace Exec

/-- The contract says nothing about states. -/
def AnyState (_ : State) : Prop := True

theorem steady_anyState : Steady AnyState := by
  constructor
  all_goals
    intros
    trivial

theorem stable_anyState : Stable AnyState fun _ => True where
  toSteady := steady_anyState
  newChild _ _ _ := ⟨trivial, trivial⟩
  defineFresh _ _ _ _ _ _ := trivial
  overwrite _ _ _ _ _ _ _ := trivial

section Questions

theorem confined_evaluate (e : Expr) (scope : ScopeId) :
    Meets confinement AnyState (fun _ => True) Raise.NamesThrow (evaluate e scope) :=
  meets_evaluate fun _ _ => ⟨trivial, fun _ _ h => ⟨trivial, h⟩⟩

theorem confined_call (f : FunctionRef) (args : List Value) :
    Meets confinement AnyState (fun _ => True) Raise.NamesThrow (call f args) :=
  meets_call fun _ _ => ⟨trivial, fun _ _ h => ⟨trivial, h⟩⟩

theorem confined_execute (stmt : Stmt) (scope : ScopeId) (cx : Context) :
    Meets confinement AnyState (Signaling cx.Lets) EngineError.NamesThrow
      (execute stmt scope cx) :=
  meets_execute fun _ _ => ⟨trivial, fun _ _ h => ⟨trivial, h⟩⟩

theorem confined_block (body : Block) (cx : Context) (scope : ScopeId) :
    Meets confinement AnyState (Signaling cx.Lets) EngineError.NamesThrow (runBlock body scope cx) :=
  meets_runBlock fun _ _ => ⟨trivial, fun _ _ h => ⟨trivial, h⟩⟩

theorem confined_iterate (loop : LoopHead) :
    Meets confinement AnyState (Signaling loop.context.outsideLoops.Lets) Raise.NamesThrow
      (iterate loop) :=
  meets_iterate fun _ _ => ⟨trivial, fun _ _ h => ⟨trivial, h⟩⟩

theorem confined_drain {bad : ε → Prop} :
    Meets confinement AnyState (fun _ => True) bad (drain : Exec ε Nat) :=
  meets_drain fun _ _ => ⟨trivial, fun _ _ _ => ⟨trivial, trivial⟩⟩

theorem confined_await {bad : ε → Prop} (what : Awaited) :
    Meets confinement AnyState (fun _ => True) bad (await what : Exec ε Unit) :=
  meets_await fun _ _ => ⟨trivial, fun _ _ _ => ⟨trivial, trivial⟩⟩

end Questions

theorem namesThrow_plain (k : ErrorKind) (h : k.IsPlain) : (Raise.ofKind k).NamesThrow :=
  h.namesThrow

/-! ## Loops -/

/-- A loop over a value consumes `breakLoop` and `continueLoop`. -/
theorem confined_runForIn (vars : List Name) (iterable : Expr) (body : Block) (scope : ScopeId)
    (cx : Context) :
    Meets confinement AnyState (Signaling cx.outsideLoops.Lets) Raise.NamesThrow
      (runForIn vars iterable body scope cx) :=
  meets_runForIn trivial (fun e (h : EngineError.NamesThrow e) => h) namesThrow_plain
    (fun g _ (h : cx.enterLoop.Lets g) hg => Context.lets_outsideLoops_of_handOn h hg)
    (stable_anyState.at scope) (confined_evaluate iterable scope)
    (blockMeets_inner fun child _ => confined_block body cx.enterLoop child)

/-- So does a loop with a condition. -/
theorem confined_runLoop (condition : Option Expr) (body : Block) (scope : ScopeId) (cx : Context) :
    Meets confinement AnyState (Signaling cx.outsideLoops.Lets) Raise.NamesThrow
      (runLoop condition body scope cx) :=
  confined_iterate ⟨condition, none, body, scope, cx.enterLoop⟩

theorem confined_iterateBody (loop : LoopHead) :
    Meets confinement AnyState (Signaling loop.context.outsideLoops.Lets) Raise.NamesThrow
      (iterateBody loop) :=
  meets_iterateBody trivial (fun _ h => h) namesThrow_plain
    (fun _ _ h hg => Context.lets_outsideLoops_of_handOn h hg) (stable_anyState.at loop.scope)
    (fun e _ => confined_evaluate e _) (fun e _ => confined_evaluate e _)
    (blockMeets_inner fun child _ => confined_block loop.body loop.context child)
    (confined_iterate loop)

/-! ## Statements and blocks -/

theorem confined_bounds : Bounds Context.Lets EngineError.NamesThrow Raise.NamesThrow where
  normal _ := trivial
  handOn cx g g' h hg := by
    have outside := Context.lets_outsideLoops_of_handOn h hg
    rw [Context.outsideLoops_enterLoop] at outside
    exact Context.lets_of_outsideLoops outside
  lift _ h := h
  plain := namesThrow_plain

/-- A signal comes about only where the context lets it, and no signal but a throw gets out of the
body of a module. -/
theorem confined_jumps (p : Position) (form : Form) (cx : Context) :
    JumpsMeet Context.Lets EngineError.NamesThrow Raise.NamesThrow p form cx where
  breakLoop _ := by
    by_cases h : cx.inLoop
    · rw [if_pos h]
      exact h
    · rw [if_neg h]
      trivial
  continueLoop _ := by
    by_cases h : cx.inLoop
    · rw [if_pos h]
      exact h
    · rw [if_neg h]
      trivial
  returnValues _ _ := by
    by_cases h : cx.callable
    · rw [if_pos h]
      exact fun _ => h
    · rw [if_neg h]
      trivial
  throwValue _ _ _ := trivial
  moduleBlock name _ _ g hg hne := by
    cases g with
    | none => exact absurd rfl hne
    | breakLoop | continueLoop =>
        have outside : ¬ Context.ofModule.inLoop = true := by decide
        exact absurd hg outside
    | returned vs =>
        have uncallable : ¬ Context.ofModule.callable = true := by decide
        exact absurd hg uncallable
    | thrown v p => rfl

theorem confined_runForm (p : Position) (form : Form) (scope : ScopeId) (cx : Context) :
    Meets confinement AnyState (Signaling cx.Lets) Raise.NamesThrow (runForm p form scope cx) := by
  refine meets_runForm (stable_anyState.at scope) confined_bounds (fun q _ _ h => h.fillPosition q)
    (confined_jumps p form cx) ?_
  have round : ∀ c u b i, Meets confinement AnyState (Signaling cx.Lets) Raise.NamesThrow
      (iterate ⟨c, u, b, i, cx.enterLoop⟩) := fun c u b i =>
    (confined_iterate ⟨c, u, b, i, cx.enterLoop⟩).mono
      (fun _ (h : cx.outsideLoops.Lets _) => Context.lets_of_outsideLoops h) fun _ h => h
  exact {
    evaluated := fun e _ => confined_evaluate e scope
    bodies := fun b _ => blockMeets_inner fun child _ => confined_block b.2 b.1 child
    start := fun stmt _ child => meets_inner fun _ => confined_execute stmt child cx
    round := fun c u b _ => ⟨round c u b scope, fun child => meets_inner fun _ => round c u b child⟩
    declared := fun _ _ _ _ _ => trivial }

/-- Positions make no difference to the confinement. -/
theorem confined_located {cx : Context} {p : Position} {x : Exec Raise Completion}
    (hx : Meets confinement AnyState (Signaling cx.Lets) Raise.NamesThrow x) :
    Meets confinement AnyState (Signaling cx.Lets) EngineError.NamesThrow (located p x) :=
  meets_located hx (fun _ _ _ => trivial) fun _ h => h

theorem confined_blockBody (body : Block) (scope : ScopeId) (cx : Context) :
    Meets confinement AnyState (Signaling cx.Lets) EngineError.NamesThrow
      (blockBody body scope cx) :=
  meets_runFrom trivial (fun _ _ => trivial) fun stmt _ => confined_execute stmt scope cx

/-! ## Calls -/

theorem confined_callBody (config : Config) (f : FunctionRef) (args : List Value) :
    Meets confinement AnyState (fun _ => True) Raise.NamesThrow (callBody config f args) := by
  refine meets_callBody namesThrow_plain (fun _ _ => ?_) confined_drain steady_anyState
    (C := fun _ => True) (fun _ _ _ _ => trivial) fun c _ => ?_
  · exact meets_runHost (fun _ own _ => own.namesThrow) fun g vs _ _ => confined_call g vs
  · exact meets_callClosure namesThrow_plain (fun _ h => h) (fun _ _ _ => trivial)
      (fun _ => trivial) (fun _ => trivial) (fun _ _ _ => trivial) (fun _ _ => trivial)
      stable_anyState fun frame _ => confined_block c.literal.body .function frame

end Exec

/-- Every run keeps its signals confined. -/
theorem confinement_honored (config : Config) : confinement.Honored config := by
  intro q s _
  cases q with
  | evaluate e scope =>
      refine (Exec.meets_evaluateBody Exec.namesThrow_plain (Exec.stable_anyState.at scope)
        (fun _ => trivial) (fun e _ => Exec.confined_evaluate e scope) Exec.confined_call
        (fun literal _ => ?_) s trivial).mono fun _ _ h => h.2
      exact Exec.meets_modifyGet fun _ _ => ⟨trivial, trivial⟩
  | call f args => exact (Exec.confined_callBody config f args s trivial).mono fun _ _ h => h.2
  | execute stmt scope cx =>
      have h := Exec.confined_located (p := stmt.position)
        (Exec.confined_runForm stmt.position stmt.form scope cx)
      exact (h s trivial).mono fun _ _ h => h.2
  | block body scope cx =>
      exact (Exec.confined_blockBody body scope cx s trivial).mono fun _ _ h => h.2
  | iterate loop => exact (Exec.confined_iterateBody loop s trivial).mono fun _ _ h => h.2
  | work w =>
      cases w with
      | call f args => exact (Exec.confined_call f args s trivial).mono fun _ _ _ => trivial
      | perform name body args =>
          exact (Exec.meets_perform Exec.steady_anyState Exec.confined_await
            Exec.confined_drain body s trivial).mono fun _ _ _ => trivial
  | drain ran =>
      refine (Exec.ensures_drainBody Exec.steady_anyState (s := s) trivial
        (fun job => ?_) fun _ _ => ⟨trivial, fun _ _ _ => ⟨trivial, trivial⟩⟩).mono fun _ _ _ => trivial
      exact Exec.meets_runJob (J := Exec.AnyState) (B := fun _ => True)
        Exec.steady_anyState
        (Exec.meets_doWork fun _ _ => ⟨trivial, fun o _ _ => ⟨trivial, o.within_true⟩⟩)
        (fun _ _ => trivial) fun _ _ _ _ => trivial
  | await what => trivial

variable {config : Config} {s t : State} {scope : ScopeId} {cx : Context}

/-! ## Runs -/

theorem lets_of_runs_block {body : Block} {c : Completion}
    (h : Runs config (Exec.runBlock body scope cx) s (.ok c) t) : cx.Lets c.signal :=
  ((Exec.confined_block body cx scope).runs (confinement_honored config) trivial h).2

theorem lets_of_runs_execute {stmt : Stmt} {c : Completion}
    (h : Runs config (Exec.execute stmt scope cx) s (.ok c) t) : cx.Lets c.signal :=
  ((Exec.confined_execute stmt scope cx).runs (confinement_honored config) trivial h).2

/-- A statement whose form keeps the signals of loops to itself does so as well. -/
theorem not_ofLoops_of_located {p : Position} {x : Exec Raise Completion} {c : Completion}
    (hx : Exec.Meets confinement Exec.AnyState (Signaling cx.outsideLoops.Lets) Raise.NamesThrow x)
    (h : Runs config (Exec.located p x) s (.ok c) t) : ¬ c.signal.OfLoops := by
  rcases runs_located_ok_iff.mp h with h | ⟨v, at?, -, rfl⟩
  · exact Context.not_ofLoops (hx.runs (confinement_honored config) trivial h).2 rfl
  · intro h
    rcases h with h | h
    · cases h
    · cases h

/-- What leaves a loop with clauses is what its start has left with. -/
theorem runs_forClauses_ofLoops {init : Option Stmt} {condition update : Option Expr}
    {body : Block} {c : Completion} (hc : c.signal.OfLoops)
    (h : Runs config (Exec.runForClauses init condition update body scope cx) s (.ok c) t) :
    ∃ start c', init = some start ∧ c'.signal = c.signal ∧
      Runs config (Exec.execute start s.scopes.next cx) (s.newChild scope).2 (.ok c') t := by
  -- once the loop goes round, it consumes the signals of loops
  have again : ∀ {s' : State} {loop : LoopHead},
      ¬ Runs config (Exec.iterate loop) s' (.ok c) t := by
    intro s' loop h
    have kept := ((Exec.confined_iterate loop).runs (confinement_honored config) trivial h).2
    exact Context.not_ofLoops kept rfl hc
  cases init with
  | none =>
    simp only [Exec.runForClauses, runs_bind_ok_iff, runs_newChild_iff, runs_pure_iff] at h
    obtain ⟨_, _, ⟨h₁, rfl⟩, _, _, ⟨h₂, rfl⟩, h⟩ := h
    cases h₂
    exact absurd h again
  | some start =>
    simp only [Exec.runForClauses, runs_bind_ok_iff, runs_newChild_iff, runs_failing_ok_iff] at h
    obtain ⟨_, _, ⟨h₁, rfl⟩, started, s', hstarted, h⟩ := h
    cases h₁
    split at h
    · exact absurd h again
    · obtain ⟨h, rfl⟩ := runs_pure_iff.mp h
      cases h
      exact ⟨start, started, rfl, rfl, hstarted⟩

/-- The value of an expression breaks off nothing, and a call is an expression. -/
theorem signal_of_runs_expr {p : Position} {e : Expr} {c : Completion}
    (h : Runs config (Exec.execute ⟨p, .expr e⟩ scope cx) s (.ok c) t) :
    c.signal = .none ∨ ∃ v at?, c.signal = .thrown v at? := by
  rcases runs_located_ok_iff.mp (runs_execute_iff.mp h) with h | ⟨v, at?, -, rfl⟩
  · obtain ⟨v, s', -, h⟩ := runs_bind_ok_iff.mp h
    obtain ⟨h, -⟩ := runs_pure_iff.mp h
    cases h
    exact Or.inl rfl
  · exact Or.inr ⟨v, _, rfl⟩

/-- The body of a function is in no loop that it could leave. -/
theorem not_lets_break : ¬ Context.function.Lets .breakLoop :=
  fun h => Context.not_ofLoops h rfl (Or.inl rfl)

theorem not_lets_continue : ¬ Context.function.Lets .continueLoop :=
  fun h => Context.not_ofLoops h rfl (Or.inr rfl)

theorem confined_runScript (config : Config) (script : Block) (scope : ScopeId) :
    Exec.Meets confinement Exec.AnyState Execution.Handed EngineError.NamesThrow
      (Exec.runScript config script scope) :=
  Exec.meets_runScript (J := Exec.AnyState) (fun _ _ _ => trivial) (fun _ => trivial)
    (fun _ => trivial) (fun _ => trivial) (fun _ _ _ => trivial) (fun _ _ => trivial)
    (Exec.confined_block script .function scope)

/-- Nothing depends on what a call or a script would make of the signals of loops. -/
theorem runs_callBlock_congr {body : Block} {o : Outcome Raise Value}
    {yield : Completion → Exec Raise Value}
    (same : ∀ c, ¬ c.signal.OfLoops → yield c = Exec.callResult c) :
    Runs config (Exec.callBlock config body scope) s o t ↔
      Runs config (Exec.entered config.maxCallDepth .failed do
        let c ← Exec.failing (Exec.runBlock body scope .function)
        yield c) s o t := by
  refine runs_entered_congr fun s o t => runs_bind_congr fun c s' h => ?_
  have kept := lets_of_runs_block (runs_failing_ok_iff.mp h)
  rw [same c (Context.not_ofLoops kept rfl)]

theorem runs_runScript_congr {script : Block} {o : Outcome EngineError Execution}
    {yield : Completion → Exec EngineError Execution}
    (same : ∀ c, ¬ c.signal.OfLoops → yield c = Exec.scriptResult c) :
    Runs config (Exec.runScript config script scope) s o t ↔
      Runs config (Exec.entered config.maxCallDepth id do
        let c ← Exec.runBlock script scope .function
        yield c) s o t := by
  refine runs_entered_congr fun s o t => runs_bind_congr fun c s' h => ?_
  rw [same c (Context.not_ofLoops (lets_of_runs_block h) rfl)]

/-! ## The main result -/

/-- What it means that signals are confined. -/
structure ConfinesSignals (config : Config) : Prop where
  /-- A block signals what its context lets through. -/
  block {body : Block} {scope : ScopeId} {cx : Context} {s t : State} {c : Completion} :
    Runs config (Exec.runBlock body scope cx) s (.ok c) t → cx.Lets c.signal
  /-- So does a statement. -/
  statement {stmt : Stmt} {scope : ScopeId} {cx : Context} {s t : State} {c : Completion} :
    Runs config (Exec.execute stmt scope cx) s (.ok c) t → cx.Lets c.signal
  /-- A loop over a value consumes the signals of loops. -/
  forIn {p : Position} {vars : List Name} {iterable : Expr} {body : Block} {scope : ScopeId}
      {cx : Context} {s t : State} {c : Completion} :
    Runs config (Exec.execute ⟨p, .forIn vars iterable body⟩ scope cx) s (.ok c) t →
      ¬ c.signal.OfLoops
  /-- So does a loop with a condition. -/
  loop {p : Position} {condition : Option Expr} {body : Block} {scope : ScopeId} {cx : Context}
      {s t : State} {c : Completion} :
    Runs config (Exec.execute ⟨p, .loop condition body⟩ scope cx) s (.ok c) t →
      ¬ c.signal.OfLoops
  /-- A loop with clauses only hands on those of its start. -/
  forClauses {p : Position} {init : Option Stmt} {condition update : Option Expr} {body : Block}
      {scope : ScopeId} {cx : Context} {s t : State} {c : Completion} :
    Runs config (Exec.execute ⟨p, .forClauses init condition update body⟩ scope cx) s (.ok c) t →
      c.signal.OfLoops →
      ∃ start c', init = some start ∧ c'.signal = c.signal ∧
        Runs config (Exec.execute start s.scopes.next cx) (s.newChild scope).2 (.ok c') t
  /-- It makes no difference what a call would yield for a body that ends with such a signal. -/
  call {body : Block} {scope : ScopeId} {s t : State} {o : Outcome Raise Value}
      {yield : Completion → Exec Raise Value} :
    (∀ c, ¬ c.signal.OfLoops → yield c = Exec.callResult c) →
      (Runs config (Exec.callBlock config body scope) s o t ↔
        Runs config (Exec.entered config.maxCallDepth .failed do
          let c ← Exec.failing (Exec.runBlock body scope .function)
          yield c) s o t)
  /-- Nor does it make one for a script. -/
  script {script : Block} {scope : ScopeId} {s t : State} {o : Outcome EngineError Execution}
      {yield : Completion → Exec EngineError Execution} :
    (∀ c, ¬ c.signal.OfLoops → yield c = Exec.scriptResult c) →
      (Runs config (Exec.runScript config script scope) s o t ↔
        Runs config (Exec.entered config.maxCallDepth id do
          let c ← Exec.runBlock script scope .function
          yield c) s o t)
  /-- An expression, with all the calls in it, breaks off nothing except by a throw. -/
  expression {p : Position} {e : Expr} {scope : ScopeId} {cx : Context} {s t : State}
      {c : Completion} :
    Runs config (Exec.execute ⟨p, .expr e⟩ scope cx) s (.ok c) t →
      c.signal = .none ∨ ∃ v at?, c.signal = .thrown v at?
  /-- A script hands out no signal but a return. -/
  handed {script : Block} {scope : ScopeId} {s t : State} {r : Execution} :
    Runs config (Exec.runScript config script scope) s (.ok r) t → r.Handed
  /-- An error of a module, wherever it comes from, names a throw. -/
  blockError {body : Block} {scope : ScopeId} {cx : Context} {s t : State} {e : EngineError} :
    Runs config (Exec.runBlock body scope cx) s (.raised e) t → e.NamesThrow
  statementError {stmt : Stmt} {scope : ScopeId} {cx : Context} {s t : State} {e : EngineError} :
    Runs config (Exec.execute stmt scope cx) s (.raised e) t → e.NamesThrow
  scriptError {script : Block} {scope : ScopeId} {s t : State} {e : EngineError} :
    Runs config (Exec.runScript config script scope) s (.raised e) t → e.NamesThrow
  callError {f : FunctionRef} {args : List Value} {s t : State} {e : EngineError} :
    Runs config (Exec.call f args) s (.raised (.failed e)) t → e.NamesThrow

/-- **Signals are confined**, whatever is run, wherever and from whichever state. -/
theorem signals_confined (config : Config) : ConfinesSignals config where
  block h := lets_of_runs_block h
  statement h := lets_of_runs_execute h
  forIn h := not_ofLoops_of_located (Exec.confined_runForIn _ _ _ _ _) (runs_execute_iff.mp h)
  loop h := not_ofLoops_of_located (Exec.confined_runLoop _ _ _ _) (runs_execute_iff.mp h)
  forClauses h hc := by
    rcases runs_located_ok_iff.mp (runs_execute_iff.mp h) with h | ⟨v, at?, -, rfl⟩
    · exact runs_forClauses_ofLoops hc h
    · rcases hc with hc | hc
      · cases hc
      · cases hc
  call same := runs_callBlock_congr same
  script same := runs_runScript_congr same
  expression h := signal_of_runs_expr h
  handed h := ((confined_runScript config _ _).runs (confinement_honored config) trivial h).2
  blockError h :=
    ((Exec.confined_block _ _ _).runs (confinement_honored config) trivial h).2
  statementError h :=
    ((Exec.confined_execute _ _ _).runs (confinement_honored config) trivial h).2
  scriptError h :=
    ((confined_runScript config _ _).runs (confinement_honored config) trivial h).2
  callError h := ((Exec.confined_call _ _).runs (confinement_honored config) trivial h).2

/-- The start of a loop with clauses can break off the loop around, and nothing else of it can. -/
theorem forClauses_hands_on_break :
    let start : Stmt := ⟨⟨1, 6⟩, .breakLoop⟩
    let s := (State.initial .deferred .log).newRoot
    let loop : Stmt := ⟨⟨1, 1⟩, .forClauses (some start) none none []⟩
    ∃ c t, Runs .standard (Exec.execute loop s.1 .handedOver) s.2 (.ok c) t ∧
      c.signal = .breakLoop ∧
      ∃ c', c'.signal = c.signal ∧
        Runs .standard (Exec.execute start s.2.scopes.next .handedOver) (s.2.newChild s.1).2
          (.ok c') t := by
  intro start s loop
  have run : Runs .standard (Exec.execute loop s.1 .handedOver) s.2
      (.ok (.ofSignal .breakLoop)) (s.2.newChild s.1).2 := runs_iff_run.mpr ⟨9, rfl⟩
  obtain ⟨start', c', h, hc', hstart⟩ := (signals_confined .standard).forClauses run (Or.inl rfl)
  cases h
  exact ⟨_, _, run, rfl, c', hc', hstart⟩

end StatementEngine
