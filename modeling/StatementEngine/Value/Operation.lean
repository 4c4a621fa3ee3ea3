import StatementEngine.Error
import StatementEngine.Syntax.Operator
import StatementEngine.Value.Equality

/-!
# Operations on values

**What operators, indices and element assignments do.** None of them looks at anything but its
operands. Integers wrap around at 64 bits. Reading an element that is not there gives `nil`; writing
one is an error for a list and adds a key to a map.
-/

namespace StatementEngine

namespace BinaryOp

/-- The value of an operator on two operands, or the reason why it has none. -/
def apply : BinaryOp → Value → Value → Except ErrorKind Value
  | equal, a, b => .ok (.bool (a.equal b))
  | add, .int a, .int b => .ok (.int (a + b))
  | sub, .int a, .int b => .ok (.int (a - b))
  | mul, .int a, .int b => .ok (.int (a * b))
  | less, .int a, .int b => .ok (.bool (a < b))
  | add, .float a, .int b => .ok (.float (a.add (.ofInt b.toInt)))
  | add, .str a, .str b => .ok (.str (a ++ b))
  | add, .list as, .list bs => .ok (.list (as ++ bs))
  | op, a, b =>
    .error (.invalidOperation ("unsupported operands for " ++ op.name ++ ": " ++ a.type.name
      ++ " and " ++ b.type.name))

end BinaryOp

namespace AssignOp

/-- The value that a compound assignment stores. -/
def apply (op : AssignOp) (current operand : Value) : Except ErrorKind Value :=
  match op.operator? with
  | some operator => operator.apply current operand
  | none => .error (.invalidOperation ("unsupported operator " ++ op.symbol))

end AssignOp

namespace Value

/-- Reads an element. One that is not there is `nil`. -/
def element (target key : Value) : Except ErrorKind Value :=
  match target, key with
  | map entries, str k => .ok ((entries.find? k).getD nil)
  | list items, int n => .ok ((index? items n).getD nil)
  | target, _ => .error (.invalidOperation ("cannot index " ++ target.type.name))

/-- A copy of a container with one element changed. -/
def withElement (container key value : Value) : Except ErrorKind Value :=
  match container, key with
  | map entries, str k => .ok (map (entries.insert k value above_none))
  | list items, int n =>
    if (index? items n).isSome then .ok (list (items.set n.toInt.toNat value))
    else .error (.invalidOperation "index out of range")
  | _, _ => .error (.invalidOperation "cannot index-assign")

end Value

end StatementEngine
