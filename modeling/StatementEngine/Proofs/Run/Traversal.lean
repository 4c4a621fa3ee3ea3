import StatementEngine.Proofs.Contract.Keeping
import StatementEngine.Proofs.Run.Steps

/-!
# Going through the bodies

**Every body is made of plain computations and questions, in a few ways.** A property that holds of
those and is handed on by these ways holds of every body that the engine runs outside of its queue,
and of whatever a host can run. The functions of the engine are gone through once, here
(`Exec.Walk`).

A body runs in a scope, and it makes others. All that it asks is asked in these, and it declares in
no others, so a property may speak of the scopes that a computation has. Nothing but the question
whether to stop fails with `cancelled`. Three things are asked for by themselves where they happen,
so a property may leave them out: a module statement, a spawn statement, and a builtin or a command
that is about requests to stop. Running the tasks of the queue is not gone through.
-/

namespace StatementEngine

/-- The builtin is about requests to stop. -/
def Builtin.IsAboutStopping : Builtin → Prop
  | .cancel | .cancelAll | .raiseCancelled => True
  | _ => False

/-- The command changes tasks or the sink by itself. -/
def TaskCommand.IsChange : TaskCommand → Prop
  | .spawn .. | .cancel _ | .cancelQuietly _ | .cancelAll | .takeFailures => True
  | _ => False

namespace Exec

variable {α β ε : Type}

/-! ## Properties that are handed on -/

/-- The property holds of plain computations, of the question whether to stop and of questions, and
of what is made of computations that it holds of. It may depend on how a computation fails, and on
the scopes that it has: those that it has been given and those that it has made. -/
structure Walk (P : (ScopeId → Prop) → ∀ {ε α : Type}, (EngineError → ε) → Exec ε α → Prop) :
    Prop where
  plain : ∀ {K : ScopeId → Prop} {ε α : Type} {fail : EngineError → ε} {x : Exec ε α},
    Plain K fail x → P K fail x
  stop : ∀ {K : ScopeId → Prop}, P K id checkStop
  stopAt : ∀ {K : ScopeId → Prop} (p : Position), P K id (checkStop.mapError (·.locate p))
  child : ∀ {K : ScopeId → Prop} {ε α : Type} {fail : EngineError → ε} (scope : ScopeId)
    {f : ScopeId → Exec ε α},
    (∀ child, P (fun i => i = child ∨ K i) fail (f child)) → P K fail (newChild scope >>= f)
  bind : ∀ {K : ScopeId → Prop} {ε α β : Type} {fail : EngineError → ε} {x : Exec ε α}
    {f : α → Exec ε β}, P K fail x → (∀ a, P K fail (f a)) → P K fail (x >>= f)
  failing : ∀ {K : ScopeId → Prop} {α : Type} {x : Exec EngineError α},
    P K id x → P K Raise.failed (failing x)
  fillPosition : ∀ {K : ScopeId → Prop} {α : Type} {x : Exec Raise α}, P K Raise.failed x →
    ∀ p, P K Raise.failed (x.mapError (·.fillPosition p))
  located : ∀ {K : ScopeId → Prop} {x : Exec Raise Completion}, P K Raise.failed x →
    ∀ p, P K id (located p x)
  entered : ∀ {K : ScopeId → Prop} {ε α : Type} {limit : Option Nat} {fail : EngineError → ε}
    {x : Exec ε α}, P K fail x → P K fail (entered limit fail x)
  evaluate : ∀ {K : ScopeId → Prop} {scope : ScopeId}, K scope →
    ∀ e, P K Raise.failed (evaluate e scope)
  call : ∀ {K : ScopeId → Prop} f args, P K Raise.failed (call f args)
  execute : ∀ {K : ScopeId → Prop} {scope : ScopeId}, K scope →
    ∀ stmt cx, P K id (execute stmt scope cx)
  runBlock : ∀ {K : ScopeId → Prop} {scope : ScopeId}, K scope →
    ∀ body cx, P K id (runBlock body scope cx)
  iterate : ∀ {K : ScopeId → Prop} {loop : LoopHead}, K loop.scope →
    P K Raise.failed (iterate loop)
  runPending : ∀ {K : ScopeId → Prop} {ε : Type} {fail : EngineError → ε},
    P K fail (runPending : Exec ε Nat)

namespace Walk

variable {P : (ScopeId → Prop) → ∀ {ε α : Type}, (EngineError → ε) → Exec ε α → Prop}
  (hP : Walk P) {K : ScopeId → Prop} {scope : ScopeId}
include hP

theorem pure {fail : EngineError → ε} (a : α) : P K fail (Pure.pure a : Exec ε α) :=
  hP.plain (plain_pure a)

theorem raise {r : Raise} (other : r.isCancelled = false) :
    P K Raise.failed (Exec.raise r : Exec Raise α) :=
  hP.plain (plain_raise other)

/-- A plain computation and then something else. -/
theorem step {fail : EngineError → ε} {x : Exec ε α} {f : α → Exec ε β} (hx : Plain K fail x)
    (hf : ∀ a, P K fail (f a)) : P K fail (x >>= f) :=
  hP.bind (hP.plain hx) hf

/-! ## Expressions and assignments -/

section Scope
variable (mine : K scope)
include mine

theorem evaluateAll (es : List Expr) : P K Raise.failed (Exec.evaluateAll scope es) := by
  induction es with
  | nil => exact hP.pure []
  | cons e rest ih =>
      refine hP.bind (hP.evaluate mine e) fun v => ?_
      exact hP.bind ih fun vs => hP.pure _

theorem evaluateCall (callee : Expr) (args : List Expr) :
    P K Raise.failed (Exec.evaluateCall scope callee args) := by
  refine hP.bind (hP.evaluate mine callee) fun v => ?_
  split
  · exact hP.bind (hP.evaluateAll mine args) fun vs => hP.pure _
  · exact hP.raise rfl

theorem evaluateBody (e : Expr) : P K Raise.failed (Exec.evaluateBody e scope) := by
  cases e with
  | literal v => exact hP.pure v
  | «variable» name => exact hP.plain (plain_readVariable scope name tells_ofKind)
  | list items => exact hP.bind (hP.evaluateAll mine items) fun vs => hP.pure _
  | binary op left right =>
      refine hP.bind (hP.evaluate mine left) fun a => ?_
      refine hP.bind (hP.evaluate mine right) fun b => hP.plain ?_
      exact plain_ofExcept fun k h => tells_ofKind k (BinaryOp.ofOperation_of_apply h)
  | index target key =>
      refine hP.bind (hP.evaluate mine target) fun t => ?_
      refine hP.bind (hP.evaluate mine key) fun k => hP.plain ?_
      exact plain_ofExcept fun k h => tells_ofKind k (Value.ofOperation_of_element h)
  | call callee args =>
      exact hP.bind (hP.evaluateCall mine callee args) fun fvs => hP.call fvs.1 fvs.2
  | function literal => exact hP.plain (plain_capture literal scope)
  | member owner name => exact hP.plain (plain_readMember owner name)
  | fail message => exact hP.raise rfl
  | raise value => exact hP.bind (hP.evaluate mine value) fun v => hP.raise rfl
  | set name value =>
      refine hP.bind (hP.evaluate mine value) fun v => ?_
      exact hP.step (plain_setVariable scope name v tells_ofKind) fun _ => hP.pure v

theorem readTarget (target : Target) : P K Raise.failed (Exec.readTarget target scope) := by
  cases target with
  | «variable» p name => exact hP.plain (plain_readVariable scope name (tells_locate p))
  | place p e => exact hP.fillPosition (hP.evaluate mine e) p

theorem assignPlace (place : Expr) (v : Value) :
    P K Raise.failed (Exec.assignPlace place v scope) := by
  unfold Exec.assignPlace
  split
  · next name key =>
    refine hP.bind (hP.evaluate mine key) fun k => ?_
    refine hP.step (plain_readVariable scope name tells_ofKind) fun container => ?_
    refine hP.step (plain_ofExcept fun k h =>
      tells_ofKind k (Value.ofOperation_of_withElement h)) fun changed => ?_
    exact hP.plain (plain_setVariable scope name changed tells_ofKind)
  · exact hP.raise rfl
  · exact hP.raise rfl

theorem writeTarget (target : Target) (v : Value) :
    P K Raise.failed (Exec.writeTarget target v scope) := by
  cases target with
  | «variable» p name => exact hP.plain (plain_setVariable scope name v (tells_locate p))
  | place p e => exact hP.fillPosition (hP.assignPlace mine e v) p

theorem assignOne (p : Position) (op : AssignOp) (target : Target) (v : Value) :
    P K Raise.failed (Exec.assignOne p op target v scope) := by
  unfold Exec.assignOne
  split
  · refine hP.bind (hP.readTarget mine target) fun current => ?_
    refine hP.step (plain_ofExcept fun k h =>
      (AssignOp.ofOperation_of_apply h).isCancelled (some p)) fun updated => ?_
    exact hP.bind (hP.writeTarget mine target updated) fun _ => hP.pure updated
  · exact hP.bind (hP.writeTarget mine target v) fun _ => hP.pure v

theorem assignEach (p : Position) (op : AssignOp) (pairs : List (Target × Value))
    (last : Value) : P K Raise.failed (Exec.assignEach p op scope pairs last) := by
  induction pairs generalizing last with
  | nil => exact hP.pure last
  | cons tv rest ih => exact hP.bind (hP.assignOne mine p op tv.1 tv.2) ih

/-! ## Blocks and loops -/

theorem runFrom (cx : Context) (body : Block) (last : Option Value) :
    P K id (Exec.runFrom scope cx body last) := by
  induction body generalizing last with
  | nil => exact hP.pure _
  | cons stmt rest ih =>
      refine hP.bind (hP.stopAt stmt.position) fun _ => ?_
      refine hP.bind (hP.execute mine stmt cx) fun c => ?_
      split
      · exact ih _
      · exact hP.pure _

theorem blockBody (body : Block) (cx : Context) : P K id (Exec.blockBody body scope cx) :=
  hP.runFrom mine cx body none

omit mine in
theorem runChild (body : Block) (scope : ScopeId) (cx : Context) :
    P K id (Exec.runChild body scope cx) :=
  hP.child scope fun _ => hP.runBlock (Or.inl rfl) body cx

omit mine in
theorem runOptional (body : Option Block) (scope : ScopeId) (cx : Context) :
    P K id (Exec.runOptional body scope cx) := by
  cases body with
  | none => exact hP.pure _
  | some b => exact hP.runChild b scope cx

theorem holds (condition : Option Expr) : P K Raise.failed (Exec.holds condition scope) := by
  cases condition with
  | none => exact hP.pure true
  | some e => exact hP.bind (hP.evaluate mine e) fun v => hP.pure _

end Scope

theorem runRows (vars : List Name) (body : Block) (scope : ScopeId) (cx : Context)
    (rs : List (List Value)) : P K Raise.failed (Exec.runRows vars body scope cx rs) := by
  induction rs generalizing K with
  | nil => exact hP.pure _
  | cons row rest ih =>
      refine hP.bind (hP.failing hP.stop) fun _ => ?_
      refine hP.child scope fun iteration => ?_
      refine hP.step (plain_defineAll (Or.inl rfl) _) fun _ => ?_
      refine hP.bind (hP.failing (hP.runBlock (Or.inl rfl) body cx)) fun c => ?_
      split
      · exact ih
      · exact hP.pure _
      · exact hP.pure _

theorem iterateBody {loop : LoopHead} (mine : K loop.scope) :
    P K Raise.failed (Exec.iterateBody loop) := by
  refine hP.bind (hP.failing hP.stop) fun _ => ?_
  refine hP.bind (hP.holds mine loop.condition) fun b => ?_
  split
  · refine hP.bind (hP.failing (hP.runChild _ _ _)) fun c => ?_
    split
    · split
      · exact hP.bind (hP.evaluate mine _) fun _ => hP.iterate mine
      · exact hP.iterate mine
    · exact hP.pure _
    · exact hP.pure _
  · exact hP.pure _

theorem runForClauses (init : Option Stmt) (condition update : Option Expr) (body : Block)
    (scope : ScopeId) (cx : Context) :
    P K Raise.failed (Exec.runForClauses init condition update body scope cx) := by
  refine hP.child scope fun child => ?_
  have goOn : ∀ started : Completion, P (fun i => i = child ∨ K i) Raise.failed
      (if started.isNormal then Exec.iterate ⟨condition, update, body, child, cx.enterLoop⟩
        else Pure.pure (.ofSignal started.signal)) := by
    intro started
    split
    · exact hP.iterate (Or.inl rfl)
    · exact hP.pure _
  cases init with
  | none => exact hP.bind (hP.pure _) goOn
  | some stmt => exact hP.bind (hP.failing (hP.execute (Or.inl rfl) stmt cx)) goOn

/-! ## Statements -/

section Scope
variable (mine : K scope)
include mine

theorem runBranches (otherwise : Option Block) (cx : Context) (branches : List Branch) :
    P K Raise.failed (Exec.runBranches otherwise scope cx branches) := by
  induction branches with
  | nil => exact hP.failing (hP.runOptional otherwise scope cx)
  | cons b rest ih =>
      refine hP.bind (hP.fillPosition (hP.evaluate mine _) _) fun v => ?_
      split
      · exact hP.failing (hP.runChild b.body scope cx)
      · exact ih

theorem anyEquals (subject : Value) (p : Position) (candidates : List Expr) :
    P K Raise.failed (Exec.anyEquals subject scope p candidates) := by
  induction candidates with
  | nil => exact hP.pure false
  | cons e rest ih =>
      refine hP.bind (hP.fillPosition (hP.evaluate mine e) p) fun v => ?_
      split
      · exact hP.pure true
      · exact ih

theorem runCases (subject : Value) (default : Option Block) (cx : Context) (cases : List Case) :
    P K Raise.failed (Exec.runCases subject default scope cx cases) := by
  induction cases with
  | nil => exact hP.failing (hP.runOptional default scope cx)
  | cons c rest ih =>
      refine hP.bind (hP.anyEquals mine subject c.position c.values) fun found => ?_
      split
      · exact hP.failing (hP.runChild c.body scope cx)
      · exact ih

omit mine in
theorem runTry (body : Block) (handler : Option Handler) (cleanup : Option Block) (scope : ScopeId)
    (cx : Context) : P K id (Exec.runTry body handler cleanup scope cx) := by
  refine hP.bind (hP.runChild body scope cx) fun attempted => ?_
  refine hP.bind ?_ fun pending => ?_
  · unfold Exec.runHandler
    split
    · refine hP.child scope fun inner => ?_
      refine hP.step (plain_defineAll (Or.inl rfl) _) fun _ => ?_
      exact hP.runBlock (Or.inl rfl) _ cx
    · exact hP.pure _
  · refine hP.bind (hP.runOptional cleanup scope cx) fun c => ?_
    split
    · exact hP.pure pending
    · exact hP.pure c

theorem runForm (p : Position) (form : Form) (cx : Context)
    (modules : ∀ name body, form = .moduleBlock name body →
      P K id (Exec.runModule p name body scope))
    (spawn : ∀ e, form = .spawn e → P K Raise.failed (Exec.runSpawn p e scope)) :
    P K Raise.failed (Exec.runForm p form scope cx) := by
  cases form with
  | expr e => exact hP.bind (hP.evaluate mine e) fun v => hP.pure _
  | ifChain branches otherwise => exact hP.runBranches mine otherwise cx branches
  | tryCatch body handler cleanup => exact hP.failing (hP.runTry body handler cleanup scope cx)
  | forIn vars iterable body =>
      refine hP.bind (hP.evaluate mine iterable) fun v => ?_
      refine hP.step (plain_ofExcept fun k h => tells_ofKind k (ofOperation_of_rows h)) fun rs => ?_
      exact hP.runRows vars body scope _ rs
  | forClauses init condition update body =>
      exact hP.runForClauses init condition update body scope cx
  | loop condition body => exact hP.iterate mine
  | breakLoop | continueLoop =>
      unfold Exec.runForm
      dsimp only
      split
      · exact hP.pure _
      · exact hP.raise rfl
  | returnValues values =>
      unfold Exec.runForm
      dsimp only
      split
      · exact hP.bind (hP.evaluateAll mine values) fun vs => hP.pure _
      · exact hP.raise rfl
  | throwValue value => exact hP.bind (hP.evaluate mine value) fun v => hP.pure _
  | moduleBlock name body => exact hP.failing (modules name body rfl)
  | switch subject cases default =>
      refine hP.bind (hP.evaluate mine subject) fun v => ?_
      exact hP.runCases mine v default cx cases
  | var names values =>
      refine hP.bind (hP.evaluateAll mine values) fun vs => ?_
      refine hP.step (plain_ofExcept fun k h =>
        tells_ofKind k (ofOperation_of_declared h)) fun bindings => ?_
      exact hP.step (plain_defineAll mine bindings) fun _ => hP.pure _
  | assign targets op values =>
      refine hP.bind (hP.evaluateAll mine values) fun vs => ?_
      refine hP.step (plain_ofExcept fun k h =>
        tells_ofKind k (ofOperation_of_assigned h)) fun paired => ?_
      exact hP.bind (hP.assignEach mine p op _ _) fun last => hP.pure _
  | assignFound targets value =>
      unfold Exec.runForm runAssignFound
      dsimp only
      split
      · exact hP.raise rfl
      · refine hP.bind (hP.evaluate mine value) fun v => ?_
        exact hP.bind (hP.assignEach mine p .assign _ _) fun _ => hP.pure _
  | spawn e => exact spawn e rfl

/-- The property holds of all statements, if it holds of modules and of those that spawn. -/
theorem executeBody (stmt : Stmt) (cx : Context)
    (modules : ∀ name body, stmt.form = .moduleBlock name body →
      P K id (Exec.runModule stmt.position name body scope))
    (spawn : ∀ e, stmt.form = .spawn e → P K Raise.failed (Exec.runSpawn stmt.position e scope)) :
    P K id (Exec.executeBody stmt scope cx) :=
  hP.located (hP.runForm mine stmt.position stmt.form cx modules spawn) stmt.position

end Scope

/-! ## Calls and scripts -/

theorem callResult (c : Completion) : P K Raise.failed (Exec.callResult c) := by
  unfold Exec.callResult
  split
  all_goals first
    | exact hP.pure _
    | exact hP.raise rfl

theorem callBlock (config : Config) (mine : K scope) (body : Block) :
    P K Raise.failed (Exec.callBlock config body scope) := by
  refine hP.entered ?_
  exact hP.bind (hP.failing (hP.runBlock mine body .function)) hP.callResult

theorem runHost (program : HostProgram) : P K Raise.failed (Exec.runHost program) := by
  induction program with
  | yield v => exact hP.pure v
  | raise r own => exact hP.raise own.isCancelled
  | panic message => exact hP.plain (plain_panic message)
  | call f args next ih => exact hP.bind (hP.call f args) ih

theorem callBuiltin (b : Builtin) (args : List Value)
    (stopping : b.IsAboutStopping → P K Raise.failed (Exec.callBuiltin b args)) :
    P K Raise.failed (Exec.callBuiltin b args) := by
  cases b with
  | depth | live | cancelled | status => exact hP.plain (plain_read _)
  | runPending => exact hP.bind hP.runPending fun ran => hP.pure _
  | cancel | cancelAll | raiseCancelled => exact stopping trivial
  | throwAt | panic | invoke => exact hP.runHost _

/-- The property holds of all calls, if it holds of those that are about requests to stop. -/
theorem callBody (config : Config) (f : FunctionRef) (args : List Value)
    (stopping : ∀ b, f = .builtin b → b.IsAboutStopping →
      P K Raise.failed (Exec.callBuiltin b args)) :
    P K Raise.failed (Exec.callBody config f args) := by
  cases f with
  | host id name => exact hP.runHost _
  | recorder => exact hP.step (plain_modify fun _ => .record _) fun _ => hP.pure _
  | builtin b => exact hP.callBuiltin b args (stopping b rfl)
  | closure id name =>
      refine hP.step (plain_read _) fun c? => ?_
      split
      · refine hP.child _ fun frame => ?_
        refine hP.step (plain_defineAll (Or.inl rfl) _) fun _ => ?_
        exact hP.callBlock config (Or.inl rfl) _
      · exact hP.raise rfl

theorem runScript (config : Config) (mine : K scope) (script : Block) :
    P K id (Exec.runScript config script scope) := by
  refine hP.entered (hP.bind (hP.runBlock mine script .function) fun c => ?_)
  unfold scriptResult
  split
  all_goals first
    | exact hP.pure _
    | exact hP.plain (plain_raiseError nofun)

/-- The property holds of whatever a host can have run, whichever scope it is run in. -/
theorem everywhere (config : Config) :
    Everywhere config fun x fail => P (fun _ => True) fail x where
  execute stmt _ cx := hP.execute trivial stmt cx
  runBlock body _ cx := hP.runBlock trivial body cx
  evaluate e _ := hP.evaluate trivial e
  call := hP.call
  callBlock body _ := hP.callBlock config trivial body
  runScript script _ := hP.runScript config trivial script

/-! ## Commands of the host -/

theorem onHeld {fail : EngineError → ε} {t : TaskId} {reply : Exec ε TaskReply}
    (h : P K fail reply) : P K fail (Exec.onHeld t reply) := by
  refine hP.step (plain_read _) fun held => ?_
  split
  · exact h
  · exact hP.pure _

/-- The property holds of all commands but those that are changes of their own. -/
theorem runCommand (fail : EngineError → ε)
    (waitFor : ∀ what, P K fail (Exec.waitFor what : Exec ε Unit)) {c : TaskCommand}
    (other : ¬ c.IsChange) : P K fail (Exec.runCommand c : Exec ε TaskReply) := by
  have look : ∀ f : State → TaskReply, P K fail (Exec.read f : Exec ε TaskReply) :=
    fun f => hP.plain (plain_read f)
  cases c with
  | spawn | cancel | cancelQuietly | cancelAll | takeFailures => exact absurd trivial other
  | runPending => exact hP.bind hP.runPending fun _ => hP.pure _
  | joinAll =>
      refine hP.bind ?_ fun _ => hP.pure _
      exact hP.bind hP.runPending fun _ => waitFor _
  | live | tasks | requested | depth | failures | strategy | describeScheduler | describeSink =>
      exact look _
  | handle t => exact look _
  | status t => exact hP.onHeld (look _)
  | join t => exact hP.onHeld (hP.bind (waitFor _) fun _ => look _)
  | joinTimeout t => exact hP.onHeld (hP.bind (waitFor _) fun _ => look _)
  | describeTask t => exact hP.onHeld (look _)
  | hold =>
      unfold Exec.runCommand
      exact hP.plain (plain_modifyGet fun _ => .hold _)

end Walk

end Exec

end StatementEngine
