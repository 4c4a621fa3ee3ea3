import StatementEngine.Engine.State
import StatementEngine.Resumption.Basic

/-!
# Computations of the engine

**A run is described with questions.** Evaluating an expression, calling a function, executing a
statement, running a block, going round a loop, doing the work of a task, draining the queue and
waiting all need one another; each of them is a `Request`, and the body of one asks for the others.
`StatementEngine.Engine.Interpreter` says how each is answered.

* `Outcome` keeps the ways of ending apart: a value, an error of the script, a panic of the host.
* `Exec ε α` is a computation with such an outcome. Its `bind` stops at the first end that is not a
  value. The state is never rolled back: it is the state at the moment of that end.
-/

namespace StatementEngine

/-- How a computation ends. -/
inductive Outcome (ε α : Type) where
  | ok (value : α)
  | raised (error : ε)
  /-- A function of the host has panicked. -/
  | panicked (message : String)

/-- The outcome with its error changed. -/
def Outcome.mapError (f : ε → δ) : Outcome ε α → Outcome δ α
  | .ok a => .ok a
  | .raised e => .raised (f e)
  | .panicked m => .panicked m

namespace Outcome

variable {f : ε → δ} {o : Outcome ε α}

theorem ok_eq_mapError_iff {a : α} : .ok a = o.mapError f ↔ o = .ok a := by
  cases o with
  | ok b => exact eq_comm.trans (by simp [mapError])
  | raised | panicked => simp [mapError]

theorem raised_eq_mapError_iff {e : δ} :
    .raised e = o.mapError f ↔ ∃ e', o = .raised e' ∧ e = f e' := by
  cases o with
  | raised e' => simp [mapError]
  | ok | panicked => simp [mapError]

theorem panicked_eq_mapError_iff {m : String} : .panicked m = o.mapError f ↔ o = .panicked m := by
  cases o with
  | panicked n => exact eq_comm.trans (by simp [mapError])
  | ok | raised => simp [mapError]

end Outcome

/-- What a statement may do besides running: it may leave a loop, and it may return. -/
structure Context where
  loopDepth : Nat
  callable : Bool
  deriving DecidableEq

namespace Context

/-- The body of a function, and a script. -/
def function : Context := ⟨0, true⟩

/-- The body of a module. -/
def ofModule : Context := ⟨0, false⟩

/-- Statements whose signals the host takes over. -/
def handedOver : Context := ⟨1, true⟩

/-- The deepest nesting of loops that is counted. -/
def maxLoopDepth : Nat := 4294967295

/-- The body of a loop. -/
def enterLoop (cx : Context) : Context :=
  { cx with loopDepth := min (cx.loopDepth + 1) maxLoopDepth }

def inLoop (cx : Context) : Bool := 0 < cx.loopDepth

end Context

/-- A loop about to look at its condition: its condition and update are evaluated in `scope`, and
each iteration runs in a child of it. -/
structure LoopHead where
  condition : Option Expr
  update : Option Expr
  body : Block
  scope : ScopeId
  context : Context

/-- What a computation can wait for while others go on. -/
inductive Awaited where
  /-- The end of a task. -/
  | task (t : TaskId)
  /-- The end of a task, but not for ever. -/
  | taskForAWhile (t : TaskId)
  /-- The end of every live task. -/
  | allTasks

/-- The questions of the engine. -/
inductive Request where
  | evaluate (e : Expr) (scope : ScopeId)
  | call (f : FunctionRef) (args : List Value)
  | execute (s : Stmt) (scope : ScopeId) (cx : Context)
  | block (body : Block) (scope : ScopeId) (cx : Context)
  | iterate (loop : LoopHead)
  /-- Does the work of a task. -/
  | work (w : Work)
  /-- Runs the queued tasks until none is left, and counts on from a number. -/
  | drain (ran : Nat)
  /-- Waits for workers in the background. -/
  | await (what : Awaited)

/-- The answers to the questions. -/
abbrev Answer : Request → Type
  | .evaluate .. => Outcome Raise Value
  | .call .. => Outcome Raise Value
  | .execute .. => Outcome EngineError Completion
  | .block .. => Outcome EngineError Completion
  | .iterate .. => Outcome Raise Completion
  | .work .. => Outcome Raise Value
  | .drain .. => Nat
  | .await .. => Unit

/-- A computation over the state of a run that may ask the engine. -/
abbrev Asking (α : Type) : Type := Resumption Answer State α

/-- A computation that ends with a value, an error or a panic. -/
def Exec (ε α : Type) : Type := State → Asking (Outcome ε α)

namespace Exec

variable {ε δ κ α β : Type}

protected def pure (a : α) : Exec ε α := fun s => .done (.ok a) s

/-- Goes on with the value of a computation; any other end is the end. -/
protected def bind (x : Exec ε α) (f : α → Exec ε β) : Exec ε β := fun s =>
  (x s).bind fun o s =>
    match o with
    | .ok a => f a s
    | .raised e => .done (.raised e) s
    | .panicked m => .done (.panicked m) s

instance : Monad (Exec ε) where
  pure := Exec.pure
  bind := Exec.bind

/-- Ends with an error. -/
def raise (e : ε) : Exec ε α := fun s => .done (.raised e) s

/-- Ends with a panic of the host. -/
def panic (message : String) : Exec ε α := fun s => .done (.panicked message) s

/-- Looks at the state. -/
def read (f : State → α) : Exec ε α := fun s => .done (.ok (f s)) s

/-- Changes the state. -/
def modify (f : State → State) : Exec ε Unit := fun s => .done (.ok ()) (f s)

/-- Changes the state and yields what the change yields. -/
def modifyGet (f : State → α × State) : Exec ε α := fun s =>
  let (a, s) := f s
  .done (.ok a) s

/-- A result that is known already. -/
def ofExcept (lift : κ → ε) : Except κ α → Exec ε α
  | .ok a => Exec.pure a
  | .error e => raise (lift e)

/-- Changes the error of a computation. -/
def mapError (f : ε → δ) (x : Exec ε α) : Exec δ α := fun s =>
  (x s).bind fun o s => .done (o.mapError f) s

/-- However the computation ends, goes on with its outcome. -/
def settle (x : Exec ε α) : Exec δ (Outcome ε α) := fun s =>
  (x s).bind fun o s => .done (.ok o) s

/-- Whatever the outcome, changes the state afterwards. -/
def thenAlways (x : Exec ε α) (f : State → State) : Exec ε α := fun s =>
  (x s).bind fun o s => .done o (f s)

/-! ## Laws -/

theorem bind_apply (x : Exec ε α) (f : α → Exec ε β) (s : State) :
    (x >>= f) s = (x s).bind fun o s =>
      match o with
      | .ok a => f a s
      | .raised e => .done (.raised e) s
      | .panicked m => .done (.panicked m) s := rfl

@[simp] theorem pure_apply (a : α) (s : State) : (pure a : Exec ε α) s = .done (.ok a) s := rfl

instance : LawfulMonad (Exec ε) := LawfulMonad.mk' _
  (fun x => by
    funext s
    show (x s).bind _ = x s
    conv => rhs; rw [← Resumption.bind_done (x s)]
    congr 1
    funext o s
    cases o <;> rfl)
  (fun a f => rfl)
  (fun x f g => by
    funext s
    show ((x s).bind _).bind _ = (x s).bind _
    rw [Resumption.bind_assoc]
    congr 1
    funext o s
    cases o <;> rfl)

/-! ## The questions -/

/-- Evaluates an expression. -/
def evaluate (e : Expr) (scope : ScopeId) : Exec Raise Value := fun s =>
  .ask (.evaluate e scope) s .done

/-- Calls a function. -/
def call (f : FunctionRef) (args : List Value) : Exec Raise Value := fun s =>
  .ask (.call f args) s .done

/-- Executes a statement. -/
def execute (stmt : Stmt) (scope : ScopeId) (cx : Context) : Exec EngineError Completion := fun s =>
  .ask (.execute stmt scope cx) s .done

/-- Runs a block in a scope. -/
def runBlock (body : Block) (scope : ScopeId) (cx : Context) : Exec EngineError Completion :=
  fun s => .ask (.block body scope cx) s .done

/-- Goes round a loop from its head on. -/
def iterate (loop : LoopHead) : Exec Raise Completion := fun s =>
  .ask (.iterate loop) s .done

/-- Does the work of a task. -/
def doWork (w : Work) : Exec Raise Value := fun s =>
  .ask (.work w) s .done

/-- Runs the queued tasks, and the tasks they spawn, and yields their number. -/
def drain : Exec ε Nat := fun s =>
  .ask (.drain 0) s fun ran s => .done (.ok ran) s

/-- Waits for workers in the background. -/
def await (what : Awaited) : Exec ε Unit := fun s =>
  .ask (.await what) s fun _ s => .done (.ok ()) s

/-! ## Small steps -/

/-- An error of the script's structure as the failure of an expression. -/
def failing (x : Exec EngineError α) : Exec Raise α := x.mapError .failed

/-- A child of a scope. -/
def newChild (scope : ScopeId) : Exec ε ScopeId := modifyGet (·.newChild scope)

/-- Binds a name in a scope. -/
def define (scope : ScopeId) (name : Name) (value : Value) : Exec ε Unit :=
  modify fun s => { s with scopes := s.scopes.define scope name value }

/-- Binds several names in a scope. -/
def defineAll (scope : ScopeId) (bindings : List (Name × Value)) : Exec ε Unit :=
  modify fun s => { s with scopes := s.scopes.defineAll scope bindings }

/-- Reads a variable. -/
def readVariable (scope : ScopeId) (name : Name) : Exec ErrorKind Value := fun s =>
  match s.scopes.get? scope name with
  | some v => .done (.ok v) s
  | none => .done (.raised (.undefinedName name)) s

/-- Sets a variable where it is bound. -/
def setVariable (scope : ScopeId) (name : Name) (value : Value) : Exec ErrorKind Unit := fun s =>
  match s.scopes.place? scope name with
  | some (d, slot) => .done (.ok ()) { s with scopes := s.scopes.write d slot value }
  | none => .done (.raised (.undefinedName name)) s

/-- A variable is set in the nearest scope that binds it. -/
theorem setVariable_apply (scope : ScopeId) (name : Name) (value : Value) (s : State) :
    setVariable scope name value s =
      match s.scopes.definer? scope name with
      | some d => .done (.ok ()) { s with scopes := s.scopes.define d name value }
      | none => .done (.raised (.undefinedName name)) s := by
  have whole : setVariable scope name value s =
      match s.scopes.set? scope name value with
      | some scopes => .done (.ok ()) { s with scopes }
      | none => .done (.raised (.undefinedName name)) s := by
    rw [setVariable, ScopeStore.set?]
    cases s.scopes.place? scope name <;> rfl
  rw [whole, ScopeStore.set?_eq]
  cases s.scopes.definer? scope name <;> rfl

/-- Fails if the task being run has been asked to stop. -/
def checkStop : Exec EngineError Unit := fun s =>
  if s.stopRequested then .done (.raised (.ofKind .cancelled)) s else .done (.ok ()) s

end Exec

end StatementEngine
