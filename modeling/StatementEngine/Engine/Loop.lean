import StatementEngine.Engine.Block
import StatementEngine.Engine.Expression

/-!
# Loops

**Three loops, two engines.** A loop over a value first splits it into rows (`rows`), one for each
iteration, and is then a walk over that list: nothing that the body does can change the rows. The
loops with a condition share one head, `LoopHead`: look at the condition, run the body in a new
scope, update, and go round again.

Every iteration starts with the question whether the running task should stop.
-/

namespace StatementEngine

/-- A list brought to a length: cut off, or filled up with `nil`. -/
def resized (length : Nat) (items : List Value) : List Value :=
  items.take length ++ List.replicate (length - items.length) .nil

/-- The values of the loop variables for each iteration over a value. -/
def rows (iterable : Value) (arity : Nat) : Except ErrorKind (List (List Value)) :=
  match iterable with
  | .list items =>
    if arity ≤ 1 then .ok (items.map fun item => [item])
    else
      items.mapM fun
        | .list parts => .ok (resized arity parts)
        | _ => .error (.cardinalityMismatch arity 1)
  | .map entries =>
    match arity with
    | 0 | 1 => .ok (entries.keys.map fun k => [.str k])
    | 2 => .ok (entries.toList.map fun (k, v) => [.str k, v])
    | _ => .error (.cardinalityMismatch arity 2)
  | .str text =>
    if arity ≤ 1 then .ok (text.toList.map fun c => [.str (String.singleton c)])
    else .error (.cardinalityMismatch arity 1)
  | other => .error (.notIterable other.type)

namespace Exec

/-- Runs the body of a loop over a value for each of the rows that are left. -/
def runRows (vars : List Name) (body : Block) (scope : ScopeId) (cx : Context) :
    List (List Value) → Exec Raise Completion
  | [] => pure .empty
  | row :: rest => do
    failing checkStop
    let iteration ← newChild scope
    defineAll iteration (vars.zip row)
    let c ← failing (runBlock body iteration cx)
    match c.signal.afterIteration with
    | .again => runRows vars body scope cx rest
    | .leave => pure .empty
    | .handOn signal => pure (.ofSignal signal)

/-- A loop over a value. -/
def runForIn (vars : List Name) (iterable : Expr) (body : Block) (scope : ScopeId) (cx : Context) :
    Exec Raise Completion := do
  let v ← evaluate iterable scope
  let rs ← ofExcept .ofKind (rows v vars.length)
  runRows vars body scope cx.enterLoop rs

/-- Whether a condition holds; an absent one does. -/
def holds (condition : Option Expr) (scope : ScopeId) : Exec Raise Bool :=
  match condition with
  | some e => do
    let v ← evaluate e scope
    pure v.isTruthy
  | none => pure true

/-- The answer to `Request.iterate`. -/
def iterateBody (loop : LoopHead) : Exec Raise Completion := do
  failing checkStop
  if ← holds loop.condition loop.scope then
    let c ← failing (runChild loop.body loop.scope loop.context)
    match c.signal.afterIteration with
    | .again => do
      match loop.update with
      | some e => do
        let _ ← evaluate e loop.scope
        iterate loop
      | none => iterate loop
    | .leave => pure .empty
    | .handOn signal => pure (.ofSignal signal)
  else pure .empty

/-- A loop with at most a condition. -/
def runLoop (condition : Option Expr) (body : Block) (scope : ScopeId) (cx : Context) :
    Exec Raise Completion :=
  iterate ⟨condition, none, body, scope, cx.enterLoop⟩

/-- A loop with a start, a condition and an update, which share a scope of their own. The start
belongs to the surroundings of the loop: its signals are handed on. -/
def runForClauses (init : Option Stmt) (condition update : Option Expr) (body : Block)
    (scope : ScopeId) (cx : Context) : Exec Raise Completion := do
  let loopScope ← newChild scope
  let started ←
    match init with
    | some stmt => failing (execute stmt loopScope cx)
    | none => pure .empty
  if started.isNormal then iterate ⟨condition, update, body, loopScope, cx.enterLoop⟩
  else pure (.ofSignal started.signal)

end Exec

end StatementEngine
