import StatementEngine.Engine.Expression

/-!
# Assignments and declarations

**Every right-hand side is evaluated before anything is written.** Then the values are paired with
the left-hand sides: `assigned` for assignments, which must come out even, and `declared` for
declarations, where missing values are `nil`. In both, several names take a single list of the
right length apart. The writes follow in order, and the first that fails ends the statement.
-/

namespace StatementEngine

/-- The values for a number of targets. -/
def assigned (targets : Nat) (values : List Value) : Except ErrorKind (List Value) :=
  if values.length = targets then .ok values
  else
    match values with
    | [.list items] =>
      if 1 < targets then
        if items.length = targets then .ok items
        else .error (.cardinalityMismatch targets items.length)
      else .error (.cardinalityMismatch targets 1)
    | values => .error (.cardinalityMismatch targets values.length)

/-- The values for declared names. -/
def declared (names : List Name) (values : List Value) : Except ErrorKind (List (Name × Value)) :=
  if names.length < values.length then
    .error (.cardinalityMismatch names.length values.length)
  else
    let values :=
      match values with
      | [.list items] => if 1 < names.length ∧ items.length = names.length then items else values
      | values => values
    .ok (names.zip (values ++ List.replicate (names.length - values.length) .nil))

namespace Exec

/-- Reads the current value of a target. -/
def readTarget (target : Target) (scope : ScopeId) : Exec Raise Value :=
  match target with
  | .variable p name =>
    (readVariable scope name).mapError fun k => .failed ((EngineError.ofKind k).locate p)
  | .place p place => (evaluate place scope).mapError (·.fillPosition p)

/-- Writes a value to a target. -/
def writeTarget (target : Target) (value : Value) (scope : ScopeId) : Exec Raise Unit :=
  match target with
  | .variable p name =>
    (setVariable scope name value).mapError fun k => .failed ((EngineError.ofKind k).locate p)
  | .place p place => (assignPlace place value scope).mapError (·.fillPosition p)

/-- Assigns one value to one target and yields the value that was written. -/
def assignOne (p : Position) (op : AssignOp) (target : Target) (value : Value) (scope : ScopeId) :
    Exec Raise Value := do
  if op.isCompound then
    let current ← readTarget target scope
    let updated ← ofExcept (fun k => (Raise.ofKind k).fillPosition p) (op.apply current value)
    writeTarget target updated scope
    pure updated
  else
    writeTarget target value scope
    pure value

/-- Assigns values to targets in order and yields the value that was written last. -/
def assignEach (p : Position) (op : AssignOp) (scope : ScopeId) :
    List (Target × Value) → Value → Exec Raise Value
  | [], last => pure last
  | (target, value) :: rest, _ => do
    let written ← assignOne p op target value scope
    assignEach p op scope rest written

/-- An assignment statement. -/
def runAssign (p : Position) (targets : List Target) (op : AssignOp) (values : List Expr)
    (scope : ScopeId) : Exec Raise Completion := do
  let vs ← evaluateAll scope values
  let paired ← ofExcept .ofKind (assigned targets.length vs)
  let last ← assignEach p op scope (targets.zip paired) .nil
  pure (.ofValue last)

/-- An assignment of a value and of whether it is there, that is, not `nil`. -/
def runAssignFound (p : Position) (targets : List Target) (value : Expr) (scope : ScopeId) :
    Exec Raise Completion := do
  if 2 < targets.length then raise (.ofKind (.cardinalityMismatch targets.length 2))
  else
    let v ← evaluate value scope
    let _ ← assignEach p .assign scope (targets.zip [v, .bool !v.isNil]) .nil
    pure (.ofValue v)

/-- A declaration. -/
def runVar (names : List Name) (values : List Expr) (scope : ScopeId) : Exec Raise Completion := do
  let vs ← evaluateAll scope values
  let bindings ← ofExcept .ofKind (declared names vs)
  defineAll scope bindings
  pure .empty

end Exec

end StatementEngine
