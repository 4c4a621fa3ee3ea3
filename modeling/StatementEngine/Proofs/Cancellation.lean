import StatementEngine.Proofs.Lexical.Size
import StatementEngine.Proofs.Run.Abort
import StatementEngine.Proofs.StopRequest
import StatementEngine.Proofs.Termination

/-!
# Cancellation

**A task that has been asked to stop stops at the next statement.** It notices the request before a
statement of a block and before an iteration of a loop (`Exec.blockBody_of_stop`,
`Exec.runRows_of_stop`, `Exec.iterateBody_of_stop`), and it fails there.

That this is enough for every run to end, with no limit on calls and whatever the loops look like,
is an argument about ranks (`Contract.halts`). Blocks and loops ask nothing. A call asks for a
block, or it is a call of a function of the host. Such a function hands on fewer arguments than it
gets, or its call is left to the host. Everything else asks for a smaller tree (`Request.patience`).

The main result is `cancellation_stops`.
-/

namespace StatementEngine

variable {config : Config} {s t : State}

/-- The error of a task that is to stop, where it is noticed. -/
def EngineError.stopAt (p : Position) : EngineError := ⟨.cancelled, some p⟩

namespace Exec

/-! ## Where a task notices that it is to stop -/

/-- Whatever comes after the question is not reached. -/
theorem checkStop_bind_of_stop (hs : s.stopRequested = true) (lift : EngineError → ε)
    (next : Unit → Exec ε α) :
    (checkStop.mapError lift >>= next) s = .done (.raised (lift (.ofKind .cancelled))) s := by
  show ((checkStop s).bind _).bind _ = _
  rw [checkStop, if_pos hs]
  rfl

/-- A block notices it before its first statement. -/
theorem blockBody_of_stop (hs : s.stopRequested = true) (stmt : Stmt) (rest : Block)
    (scope : ScopeId) (cx : Context) :
    blockBody (stmt :: rest) scope cx s = .done (.raised (.stopAt stmt.position)) s :=
  checkStop_bind_of_stop hs _ _

/-- A loop over a value notices it before each of its iterations. -/
theorem runRows_of_stop (hs : s.stopRequested = true) (vars : List Name) (body : Block)
    (scope : ScopeId) (cx : Context) (row : List Value) (rest : List (List Value)) :
    runRows vars body scope cx (row :: rest) s = .done (.raised (.ofKind .cancelled)) s :=
  checkStop_bind_of_stop hs _ _

/-- The other loops notice it before they look at their condition. -/
theorem iterateBody_of_stop (hs : s.stopRequested = true) (loop : LoopHead) :
    iterateBody loop s = .done (.raised (.ofKind .cancelled)) s :=
  checkStop_bind_of_stop hs _ _

end Exec

/-! ## Blocks and loops -/

variable {first : Questions} {scope : ScopeId} {cx : Context}

theorem asks_block_of_stop (hs : s.stopRequested = true) (stmt : Stmt) (rest : Block) :
    Asks config (Exec.runBlock (stmt :: rest) scope cx) s
      [(.block (stmt :: rest) scope cx, s)] (.raised (.stopAt stmt.position)) s :=
  asks_block_iff.mpr
    ⟨[], (asks_of_done (Exec.blockBody_of_stop hs stmt rest scope cx)).mpr ⟨rfl, rfl, rfl⟩, rfl⟩

theorem asks_iterate_of_stop (hs : s.stopRequested = true) (loop : LoopHead) :
    Asks config (Exec.iterate loop) s [(.iterate loop, s)] (.raised (.ofKind .cancelled)) s :=
  asks_iterate_iff.mpr
    ⟨[], (asks_of_done (Exec.iterateBody_of_stop hs loop)).mpr ⟨rfl, rfl, rfl⟩, rfl⟩

/-- A statement fails at its own position with an error that has none. -/
theorem asks_execute_stopAt {p : Position} {form : Form}
    (h : Asks config (Exec.runForm p form scope cx) s first (.raised (.ofKind .cancelled)) t) :
    Asks config (Exec.execute ⟨p, form⟩ scope cx) s ((.execute ⟨p, form⟩ scope cx, s) :: first)
      (.raised (.stopAt p)) t :=
  asks_execute_iff.mpr ⟨first, asks_located_iff.mpr ⟨_, h, rfl⟩, rfl⟩

/-- How a loop with clauses starts. -/
def Exec.runStart (init : Option Stmt) (scope : ScopeId) (cx : Context) : Exec Raise Completion :=
  match init with
  | some stmt => failing (execute stmt scope cx)
  | none => pure .empty

theorem Exec.runForClauses_eq (init : Option Stmt) (condition update : Option Expr) (body : Block)
    (scope : ScopeId) (cx : Context) (s : State) :
    runForClauses init condition update body scope cx s =
      (runStart init (s.newChild scope).1 cx >>= fun started =>
        if started.isNormal then
          iterate ⟨condition, update, body, (s.newChild scope).1, cx.enterLoop⟩
        else pure (.ofSignal started.signal)) (s.newChild scope).2 := by
  cases init with
  | none => rfl
  | some stmt => rfl

theorem stopRequested_of_runStart {init : Option Stmt} {o : Outcome Raise Completion}
    (hs : s.stopRequested = true) (h : Runs config (Exec.runStart init scope cx) s o t) :
    t.stopRequested = true := by
  cases init with
  | none =>
      obtain ⟨-, rfl⟩ := runs_pure_iff.mp h
      exact hs
  | some stmt =>
      obtain ⟨p, h, -⟩ := runs_failing_iff.mp h
      exact stopRequested_of_answer hs (Resumption.evaluates_ask_done_iff.mp h)

theorem asks_forIn_of_stop (hs : s.stopRequested = true) {p : Position} {vars : List Name}
    {iterable : Expr} {body : Block} {v : Value} {rs : List (List Value)}
    (evaluated : Asks config (Exec.evaluate iterable scope) s first (.ok v) t)
    (hrows : rows v vars.length = .ok rs) :
    Asks config (Exec.execute ⟨p, .forIn vars iterable body⟩ scope cx) s
      ((.execute ⟨p, .forIn vars iterable body⟩ scope cx, s) :: first)
      (if rs.isEmpty then .ok .empty else .raised (.stopAt p)) t := by
  have stays : t.stopRequested = true :=
    stopRequested_of_answer hs (Resumption.evaluates_ask_done_iff.mp evaluated.runs)
  have split : Asks config (Exec.ofExcept .ofKind (rows v vars.length) : Exec Raise _) t []
      (.ok rs) t := by
    rw [hrows]
    exact asks_pure_iff.mpr ⟨rfl, rfl, rfl⟩
  -- the statement goes on with the rows and asks nothing more
  have form : ∀ o, Asks config (Exec.runRows vars body scope cx.enterLoop rs) t [] o t →
      Asks config (Exec.runForm p (.forIn vars iterable body) scope cx) s first o t := by
    intro o h
    refine (asks_bind_of_ok evaluated).mpr ⟨[], ?_, by simp⟩
    exact (asks_bind_of_ok split).mpr ⟨[], h, rfl⟩
  cases rs with
  | nil =>
      have ended := form _ (asks_pure_iff.mpr ⟨rfl, rfl, rfl⟩)
      exact asks_execute_iff.mpr ⟨first, asks_located_iff.mpr ⟨_, ended, rfl⟩, rfl⟩
  | cons row rest =>
      have refused := Exec.runRows_of_stop stays vars body scope cx.enterLoop row rest
      exact asks_execute_stopAt (form _ ((asks_of_done refused).mpr ⟨rfl, rfl, rfl⟩))

theorem asks_forClauses_of_stop (hs : s.stopRequested = true) {p : Position} {init : Option Stmt}
    {condition update : Option Expr} {body : Block} {c : Completion}
    (started : Asks config (Exec.runStart init (s.newChild scope).1 cx) (s.newChild scope).2 first
      (.ok c) t) (normal : c.isNormal) :
    Asks config (Exec.execute ⟨p, .forClauses init condition update body⟩ scope cx) s
      ((.execute ⟨p, .forClauses init condition update body⟩ scope cx, s) ::
        (first ++ [(.iterate ⟨condition, update, body, (s.newChild scope).1, cx.enterLoop⟩, t)]))
      (.raised (.stopAt p)) t := by
  have still : (s.newChild scope).2.stopRequested = true := hs
  have stays : t.stopRequested = true := stopRequested_of_runStart still started.runs
  refine asks_execute_stopAt ?_
  show Asks config (Exec.runForClauses init condition update body scope cx) s _ _ _
  unfold Asks
  rw [Exec.runForClauses_eq]
  refine (asks_bind_of_ok started).mpr ⟨_, ?_, rfl⟩
  rw [if_pos normal]
  exact asks_iterate_of_stop stays _

/-- What a task that is to stop does with the loops that it comes to. -/
structure RefusesLoops (config : Config) (s : State) : Prop where
  /-- A loop over a value fails once its rows are known, if there are any. -/
  forIn : ∀ p vars iterable body scope cx first v rs t,
    Asks config (Exec.evaluate iterable scope) s first (.ok v) t → rows v vars.length = .ok rs →
    Asks config (Exec.execute ⟨p, .forIn vars iterable body⟩ scope cx) s
      ((.execute ⟨p, .forIn vars iterable body⟩ scope cx, s) :: first)
      (if rs.isEmpty then .ok .empty else .raised (.stopAt p)) t
  /-- A loop with clauses fails once it has started, at the head of its first round. -/
  forClauses : ∀ p init condition update body scope cx first c t,
    Asks config (Exec.runStart init (s.newChild scope).1 cx) (s.newChild scope).2 first (.ok c) t →
    c.isNormal →
    Asks config (Exec.execute ⟨p, .forClauses init condition update body⟩ scope cx) s
      ((.execute ⟨p, .forClauses init condition update body⟩ scope cx, s) ::
        (first ++ [(.iterate ⟨condition, update, body, (s.newChild scope).1, cx.enterLoop⟩, t)]))
      (.raised (.stopAt p)) t
  /-- A loop with a condition fails at the head of its first round. -/
  loop : ∀ p condition body scope cx,
    Asks config (Exec.execute ⟨p, .loop condition body⟩ scope cx) s
      [(.execute ⟨p, .loop condition body⟩ scope cx, s),
        (.iterate ⟨condition, none, body, scope, cx.enterLoop⟩, s)]
      (.raised (.stopAt p)) s

theorem refusesLoops_of_stop (hs : s.stopRequested = true) : RefusesLoops config s where
  forIn _ _ _ _ _ _ _ _ _ _ evaluated hrows := asks_forIn_of_stop hs evaluated hrows
  forClauses _ _ _ _ _ _ _ _ _ _ started normal := asks_forClauses_of_stop hs started normal
  loop _ _ _ _ _ := asks_execute_stopAt (asks_iterate_of_stop hs _)

/-! ## Coming to an end -/

/-- The questions that come up outside of tasks. -/
def Request.OutsideTasks : Request → Prop
  | .work _ | .await _ => False
  | _ => True

/-- How long it can take to answer a question in a task that is to stop: blocks and loops end at
once, a call comes to a block, and the rest goes by the size of the tree. -/
noncomputable def Request.patience : Request → Nat
  | .call .. => 1
  | .evaluate e _ => sizeOf e + 2
  | .execute stmt _ _ => sizeOf stmt + 2
  | _ => 0

noncomputable def Request.stopRank (q : Request) (_ : State) : Nat × Nat := (q.patience, q.argCount)

/-- The task that runs is to stop, and stays so. -/
def stopping : Contract where
  requires q s := q.OutsideTasks ∧ s.stopRequested = true
  promises _ _ _ t := t.stopRequested = true

/-- The same, below a question. -/
noncomputable abbrev stoppingBelow (config : Config) (q : Request) (s : State) : Contract :=
  stopping.below config (Prod.Lex (· < ·) (· < ·)) Request.stopRank q s

theorem stable_stopRequested : Stable (fun s => s.stopRequested = true) fun _ => True where
  newChild _ _ h := ⟨h, trivial⟩
  defineFresh _ _ _ _ _ h := h
  overwrite _ _ _ _ _ _ h := h
  register _ _ h := h
  schedule _ _ step h := by
    obtain ⟨task, running, asked⟩ := stopRequested_iff.mp h
    exact stopRequested_iff.mpr ⟨task, running, asked.step step⟩
  tell _ _ h := h
  record _ _ h := h
  hold _ _ h := h
  note _ _ h := h

theorem stopping_lets {p q : Request} (outside : p.OutsideTasks)
    (lt : q.OfEngine config → p.OfEngine config →
      Prod.Lex (· < ·) (· < ·) (p.patience, p.argCount) (q.stopRank s)) :
    (stoppingBelow config q s).Lets (fun t => t.stopRequested = true) p :=
  fun _ ht => ⟨⟨⟨outside, ht⟩, lt⟩, fun _ _ hu => ⟨hu, trivial⟩⟩

theorem stopping_evaluateBody (e : Expr) (scope : ScopeId) :
    Exec.Keeps (stoppingBelow config (.evaluate e scope) s) (fun t => t.stopRequested = true)
      (Exec.evaluateBody e scope) := by
  refine Exec.keeps_evaluateBody (stable_stopRequested.at scope) (fun o ho => ?_) (fun f args => ?_)
    fun _ _ _ ht => ht
  · exact stopping_lets trivial fun _ _ =>
      .left _ _ (Nat.add_lt_add_right (Expr.sizeOf_operand ho) 2)
  · exact stopping_lets trivial fun _ _ => .left _ _ (Nat.lt_add_left _ Nat.one_lt_two)

theorem stopping_executeBody (stmt : Stmt) (scope : ScopeId) (cx : Context) :
    Exec.Keeps (stoppingBelow config (.execute stmt scope cx) s) (fun t => t.stopRequested = true)
      (Exec.executeBody stmt scope cx) := by
  refine Exec.keeps_executeBody stable_stopRequested (fun e he => ?_) (fun b _ child _ => ?_)
    (fun first hfirst child _ => ?_) (fun c u b _ i => ?_) fun _ _ _ _ ht => ht
  · exact stopping_lets trivial fun _ _ =>
      .left _ _ (Nat.add_lt_add_right (Stmt.sizeOf_evaluated he) 2)
  · exact stopping_lets trivial fun _ _ => .left _ _ (Nat.lt_add_left _ Nat.two_pos)
  · exact stopping_lets trivial fun _ _ =>
      .left _ _ (Nat.add_lt_add_right (Stmt.sizeOf_start hfirst) 2)
  · exact stopping_lets trivial fun _ _ => .left _ _ (Nat.lt_add_left _ Nat.two_pos)

theorem stopping_callBody (f : FunctionRef) (args : List Value) :
    Exec.Keeps (stoppingBelow config (.call f args) s) (fun t => t.stopRequested = true)
      (Exec.callBody config f args) := by
  refine Exec.keeps_callBody (J := fun t => t.stopRequested = true) (fun _ ht _ => ht)
    (fun _ ht => ht) stable_stopRequested (C := fun _ => True) (fun _ _ _ _ => trivial)
    (fun g vs h => ?_) ?_ fun c _ child _ => ?_
  · exact stopping_lets trivial fun own _ => .right _ (h.length_lt own.2)
  · exact stopping_lets trivial fun _ drain => drain.1.elim
  · exact stopping_lets trivial fun _ _ => .left _ _ Nat.one_pos

/-- What a body asks is below its question, and a block or a loop asks nothing. -/
theorem stopping_ensures {q : Request} (h : stopping.requires q s) (opened : q.Open) :
    Resumption.Ensures (stoppingBelow config q s).requires stopping.promises
      (Interpreter.bodies config q s) fun _ _ => True := by
  obtain ⟨outside, hs⟩ := h
  have close : ∀ {α ε} {x : Exec ε α},
      Exec.Keeps (stoppingBelow config q s) (fun t => t.stopRequested = true) x →
      Resumption.Ensures (stoppingBelow config q s).requires stopping.promises (x s)
        fun _ _ => True :=
    fun hx => (hx s hs).mono fun _ _ _ => trivial
  cases q with
  | evaluate e scope => exact close (stopping_evaluateBody e scope)
  | call f args => exact close (stopping_callBody f args)
  | execute stmt scope cx => exact close (stopping_executeBody stmt scope cx)
  | block body scope cx =>
      cases body with
      | nil => trivial
      | cons stmt rest =>
          show Resumption.Ensures _ _ (Exec.blockBody (stmt :: rest) scope cx s) _
          rw [Exec.blockBody_of_stop hs]
          trivial
  | iterate loop =>
      show Resumption.Ensures _ _ (Exec.iterateBody loop s) _
      rw [Exec.iterateBody_of_stop hs]
      trivial
  | work w | drain ran | await what => exact opened.elim

theorem stopping_everywhere (config : Config) :
    Exec.Everywhere config fun x _ =>
      Exec.Keeps stopping (fun s => s.stopRequested = true) x := by
  have lets : ∀ q : Request, q.OutsideTasks → stopping.Lets (fun s => s.stopRequested = true) q :=
    fun q outside t ht => ⟨⟨outside, ht⟩, fun _ _ hu => ⟨hu, trivial⟩⟩
  exact Exec.everywhere_keeps (fun _ h => h) (fun _ h => h) (fun _ _ _ => lets _ trivial)
    (fun _ _ _ => lets _ trivial) (fun _ _ => lets _ trivial) (fun _ _ => lets _ trivial)
    fun _ _ => lets _ trivial

/-- Whatever is run by a task that is to stop comes to an end. -/
theorem halts_of_stop (config : Config) (hs : s.stopRequested = true) :
    Exec.Everywhere config fun x _ => x.HostHalts config s → ∃ o t, Runs config x s o t := by
  refine (stopping_everywhere config).imp fun x _ hx host => ?_
  refine Contract.halts (Prod.lex Nat.lt_wfRel Nat.lt_wfRel).wf
    (fun q u hq opened => stopping_ensures hq opened)
    (fun q u a t hq => stopRequested_of_answer hq.2) (fun q u hq closed => ?_) (hx s hs) host
  cases q with
  | drain ran => exact ⟨ran, rfl⟩
  | work | await => exact hq.1.elim
  | evaluate | call | execute | block | iterate => exact absurd trivial closed

/-! ## What is left out -/

/-- A block that fails because its task is to stop is the last thing that the run asks for. No
handler and no block at the end of a `try` comes after it, and the run fails with its error, in its
state, the call depth aside. -/
def Exec.EndsWhenCancelled (config : Config) (x : Exec ε α) (fail : EngineError → ε) : Prop :=
  ∀ s trace e t, e.kind = .cancelled → FailsInside config (x s) trace e t →
    Asks config x s trace (.raised (fail e)) { t with callDepth := s.callDepth }

theorem endsWhenCancelled_everywhere (config : Config) :
    Exec.Everywhere config fun x fail => x.EndsWhenCancelled config fail := by
  refine ((Exec.passes_everywhere config).and (.all (kept_everywhere config))).imp ?_
  intro _ _ x fail h s trace e t _ inside
  exact h.1.aborts (fun s o t run => (h.2 s o t run).1) s trace e t inside

/-- The first block with a statement is the last thing that the run asks for, and the run fails at
that statement. -/
def Exec.EndsAtBlocks (config : Config) (x : Exec ε α) (fail : EngineError → ε) (s : State) :
    Prop :=
  ∀ before stmt rest scope cx u,
    Resumption.Reaches (Interpreter.bodies config) Request.Open (x s) before
      (.block (stmt :: rest) scope cx) u →
    Asks config x s (before ++ [(.block (stmt :: rest) scope cx, u)])
      (.raised (fail (.stopAt stmt.position))) { u with callDepth := s.callDepth }

theorem endsAtBlocks_everywhere (config : Config) (hs : s.stopRequested = true) :
    Exec.Everywhere config fun x fail => x.EndsAtBlocks config fail s := by
  refine ((endsWhenCancelled_everywhere config).and (stopping_everywhere config)).imp ?_
  intro _ _ x fail h before stmt rest scope cx u reached
  -- the task is still to stop where the block comes up
  have asked : stopping.requires (.block (stmt :: rest) scope cx) u := by
    refine reached.asked (fun q t hq opened => ?_) (fun q t a v hq => ?_) (h.2 s hs)
    · exact (stopping_ensures hq opened).mono_asks fun _ _ h => h.1
    · exact stopRequested_of_answer hq.2
  have failed : Asks config (Exec.blockBody (stmt :: rest) scope cx) u []
      (.raised (.stopAt stmt.position)) u :=
    (asks_of_done (Exec.blockBody_of_stop asked.2 stmt rest scope cx)).mpr ⟨rfl, rfl, rfl⟩
  exact h.1 s _ _ u rfl ⟨_, scope, cx, u, before, [], reached, failed, rfl⟩

/-- **A request to stop is followed.** In a task that has been asked to stop,

* a block fails before its first statement, and changes nothing;
* a loop fails before its first iteration, and before it looks at its condition;
* nothing takes the request back;
* the first block that a run comes to is the last thing that it asks for, so that it runs no handler
  and no block at the end of a `try`, and the same holds of a block in which the request is noticed
  later;
* everything comes to an end, provided that whatever it leaves to the host does.
-/
theorem cancellation_stops (config : Config) (hs : s.stopRequested = true) :
    (∀ stmt rest scope cx, Asks config (Exec.runBlock (stmt :: rest) scope cx) s
      [(.block (stmt :: rest) scope cx, s)] (.raised (.stopAt stmt.position)) s) ∧
    RefusesLoops config s ∧
    (∀ task, s.scheduler.Stops task →
      Exec.Everywhere config fun x _ => x.StaysAsked config s task) ∧
    (Exec.Everywhere config fun x _ => ∀ o t, Runs config x s o t → t.stopRequested = true) ∧
    (Exec.Everywhere config fun x fail => x.EndsAtBlocks config fail s) ∧
    (Exec.Everywhere config fun x fail => x.EndsWhenCancelled config fail) ∧
    Exec.Everywhere config fun x _ => x.HostHalts config s → ∃ o t, Runs config x s o t := by
  refine ⟨fun stmt rest scope cx => ?_, ?_, fun task asked => ?_, ?_, ?_, ?_, ?_⟩
  · exact asks_block_of_stop hs stmt rest
  · exact refusesLoops_of_stop hs
  · exact staysAsked_everywhere config asked
  · exact stopRequested_everywhere config hs
  · exact endsAtBlocks_everywhere config hs
  · exact endsWhenCancelled_everywhere config
  · exact halts_of_stop config hs

/-- A task that is to stop, whose `try` and whose block at the end both hold an endless loop. -/
theorem cancellation_stops_endless :
    let endless : Stmt := ⟨⟨2, 1⟩, .loop none []⟩
    let guarded : Stmt := ⟨⟨1, 1⟩, .tryCatch [endless] none (some [endless])⟩
    let started := (State.initial .deferred .log).newRoot
    let scope := started.1
    let scheduler := (started.2.spawn (.call .recorder []) ⟨7, 1⟩).scheduler
    let s : State := { started.2 with
      scheduler := (scheduler.start ⟨1⟩).2.cancel ⟨1⟩
      running := some ⟨1⟩ }
    let guard := Exec.execute guarded scope .handedOver
    s.stopRequested = true ∧
      Asks .standard (Exec.execute endless scope .handedOver) s
        [(.execute endless scope .handedOver, s),
          (.iterate ⟨none, none, [], scope, Context.handedOver.enterLoop⟩, s)]
        (.raised (.stopAt ⟨2, 1⟩)) s ∧
      guard.HostHalts .standard s ∧ ∃ o t, Runs .standard guard s o t := by
  intro endless guarded started scope scheduler s guard
  have hs : s.stopRequested = true := by decide
  have stops := cancellation_stops .standard hs
  -- the body of the statement fails, and that is all
  obtain ⟨asked, o, t, run, quiet⟩ : ∃ asked o t,
      Asks .standard guard s asked o t ∧ ∀ q ∈ asked, ¬ q.1.LeftToHost .standard :=
    ⟨_, _, _, .ask (.ask (.done _ _) (.done _ _)) (.done _ _), by simp [Request.LeftToHost]⟩
  have host := Exec.hostHalts_of_asks run quiet
  exact ⟨hs, stops.2.1.loop ⟨2, 1⟩ none [] scope .handedOver, host,
    stops.2.2.2.2.2.2.execute guarded scope .handedOver host⟩

end StatementEngine
