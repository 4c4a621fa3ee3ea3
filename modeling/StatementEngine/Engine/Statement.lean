import StatementEngine.Engine.Assignment
import StatementEngine.Engine.Loop

/-!
# Statements

**One rule for every form of statement** (`runForm`), and one for where things happened
(`executeBody`): a throw that leaves an expression becomes the signal of its statement, and whatever
has no position yet gets the statement's.

Branches, handlers, cases and loop bodies run in scopes of their own, with the context of the
statement; only loops and modules change it.
-/

namespace StatementEngine

/-- How a statement at a position ends for each end of its form: a throw is its signal, and an error
without a position gets the statement's. -/
def Outcome.located (p : Position) : Outcome Raise Completion → Outcome EngineError Completion
  | .ok c => .ok c
  | .raised (.thrown v at?) => .ok (.ofSignal (.thrown v (at?.getD p)))
  | .raised (.failed e) => .raised (e.fillPosition p)
  | .panicked m => .panicked m

namespace Exec

/-- The first branch whose condition holds, or else the block at the end. -/
def runBranches (otherwise : Option Block) (scope : ScopeId) (cx : Context) :
    List Branch → Exec Raise Completion
  | [] => failing (runOptional otherwise scope cx)
  | branch :: rest => do
    let v ← (evaluate branch.condition scope).mapError (·.fillPosition branch.position)
    if v.isTruthy then failing (runChild branch.body scope cx)
    else runBranches otherwise scope cx rest

/-- Whether one of the candidates of a case equals the subject. Those after it are left alone. -/
def anyEquals (subject : Value) (scope : ScopeId) (p : Position) : List Expr → Exec Raise Bool
  | [] => pure false
  | e :: rest => do
    let v ← (evaluate e scope).mapError (·.fillPosition p)
    if v.equal subject then pure true else anyEquals subject scope p rest

/-- The block of the first case with a candidate that equals the subject, or else the default. -/
def runCases (subject : Value) (default : Option Block) (scope : ScopeId) (cx : Context) :
    List Case → Exec Raise Completion
  | [] => failing (runOptional default scope cx)
  | c :: rest => do
    if ← anyEquals subject scope c.position c.values then failing (runChild c.body scope cx)
    else runCases subject default scope cx rest

/-- Runs the handler of a `try` on what its body has completed with. Only a throw is handled. -/
def runHandler (handler : Option Handler) (pending : Completion) (scope : ScopeId) (cx : Context) :
    Exec EngineError Completion :=
  match handler, pending.signal with
  | some h, .thrown value _ => do
    let inner ← newChild scope
    defineAll inner (h.binding.toList.map fun name => (name, value))
    runBlock h.body inner cx
  | _, _ => pure pending

/-- Runs the block at the end of a `try`. A signal of its own takes the place of the pending
completion. -/
def runCleanup (cleanup : Option Block) (pending : Completion) (scope : ScopeId) (cx : Context) :
    Exec EngineError Completion := do
  let c ← runOptional cleanup scope cx
  if c.isNormal then pure pending else pure c

/-- A `try` with its handler and its block at the end. -/
def runTry (body : Block) (handler : Option Handler) (cleanup : Option Block) (scope : ScopeId)
    (cx : Context) : Exec EngineError Completion := do
  let attempted ← runChild body scope cx
  let pending ← runHandler handler attempted scope cx
  runCleanup cleanup pending scope cx

/-- Runs the body of a module and registers its scope if the body ends normally. -/
def runModule (p : Position) (name : Name) (body : Block) (scope : ScopeId) :
    Exec EngineError Completion := do
  let inner ← newChild scope
  let c ← runBlock body inner .ofModule
  if c.isNormal then
    modify fun s => { s with modules := s.modules.register name inner }
    pure .empty
  else raise ((EngineError.ofKind (.moduleEscape name c.signal.kind)).locate p)

/-- Spawns a call. The callee and the arguments are evaluated at once, the call is made later. -/
def runSpawn (p : Position) (e : Expr) (scope : ScopeId) : Exec Raise Completion :=
  match e with
  | .call callee args => do
    let (f, vs) ← evaluateCall scope callee args
    modify (·.spawn (.call f vs) p)
    pure .empty
  | _ => raise (.failed ((EngineError.ofKind .notInvokable).locate p))

/-- Runs a statement of a given form at a given position. -/
def runForm (p : Position) (form : Form) (scope : ScopeId) (cx : Context) :
    Exec Raise Completion :=
  match form with
  | .expr e => do
    let v ← evaluate e scope
    pure (.ofValue v)
  | .ifChain branches otherwise => runBranches otherwise scope cx branches
  | .tryCatch body handler cleanup => failing (runTry body handler cleanup scope cx)
  | .forIn vars iterable body => runForIn vars iterable body scope cx
  | .forClauses init condition update body => runForClauses init condition update body scope cx
  | .loop condition body => runLoop condition body scope cx
  | .breakLoop =>
    if cx.inLoop then pure (.ofSignal .breakLoop)
    else raise (.failed ((EngineError.ofKind .breakOutsideLoop).locate p))
  | .continueLoop =>
    if cx.inLoop then pure (.ofSignal .continueLoop)
    else raise (.failed ((EngineError.ofKind .continueOutsideLoop).locate p))
  | .returnValues values => do
    if cx.callable then
      let vs ← evaluateAll scope values
      pure (.ofSignal (.returned vs))
    else raise (.failed ((EngineError.ofKind .returnOutsideFunction).locate p))
  | .throwValue value => do
    let v ← evaluate value scope
    pure (.ofSignal (.thrown v p))
  | .moduleBlock name body => failing (runModule p name body scope)
  | .switch subject cases default => do
    let v ← evaluate subject scope
    runCases v default scope cx cases
  | .var names values => runVar names values scope
  | .assign targets op values => runAssign p targets op values scope
  | .assignFound targets value => runAssignFound p targets value scope
  | .spawn e => runSpawn p e scope

/-- Ends as a statement at a position does. -/
def located (p : Position) (x : Exec Raise Completion) : Exec EngineError Completion := fun s =>
  (x s).bind fun o s => .done (o.located p) s

/-- The answer to `Request.execute`. -/
def executeBody (stmt : Stmt) (scope : ScopeId) (cx : Context) : Exec EngineError Completion :=
  located stmt.position (runForm stmt.position stmt.form scope cx)

end Exec

end StatementEngine
