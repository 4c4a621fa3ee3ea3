/-!
# Operators

**Assignment operators and expression operators.** A compound assignment operator updates its
target; only three of them have an expression operator that says how (`AssignOp.operator?`).
-/

namespace StatementEngine

/-- The operators of expressions. -/
inductive BinaryOp where
  | add
  | sub
  | mul
  | less
  | equal
  deriving DecidableEq

namespace BinaryOp

/-- The name of an operator in scripts and in messages. -/
def name : BinaryOp → String
  | add => "Add"
  | sub => "Sub"
  | mul => "Mul"
  | less => "Lt"
  | equal => "Eq"

def all : List BinaryOp := [add, sub, mul, less, equal]

def ofName? (name : String) : Option BinaryOp := all.find? (·.name == name)

end BinaryOp

/-- The operators of assignment statements. -/
inductive AssignOp where
  | assign
  | add
  | sub
  | mul
  | div
  | rem
  | pow
  | bitAnd
  | bitOr
  | bitXor
  | shl
  | shr
  deriving DecidableEq

namespace AssignOp

/-- How an operator is written in a script. -/
def symbol : AssignOp → String
  | assign => "="
  | add => "+="
  | sub => "-="
  | mul => "*="
  | div => "/="
  | rem => "%="
  | pow => "**="
  | bitAnd => "&="
  | bitOr => "|="
  | bitXor => "^="
  | shl => "<<="
  | shr => ">>="

/-- The name of an operator. -/
def name : AssignOp → String
  | assign => "Assign"
  | add => "Add"
  | sub => "Sub"
  | mul => "Mul"
  | div => "Div"
  | rem => "Rem"
  | pow => "Pow"
  | bitAnd => "BitAnd"
  | bitOr => "BitOr"
  | bitXor => "BitXor"
  | shl => "Shl"
  | shr => "Shr"

def all : List AssignOp :=
  [assign, add, sub, mul, div, rem, pow, bitAnd, bitOr, bitXor, shl, shr]

/-- The operator that is written as a given symbol. -/
def ofSymbol? (symbol : String) : Option AssignOp := all.find? (·.symbol == symbol)

/-- The current value of the target takes part. -/
def isCompound (op : AssignOp) : Bool := op != assign

/-- The expression operator by which a compound operator updates its target. -/
def operator? : AssignOp → Option BinaryOp
  | add => some .add
  | sub => some .sub
  | mul => some .mul
  | _ => none

theorem ofSymbol?_symbol (op : AssignOp) : ofSymbol? op.symbol = some op := by
  cases op <;> decide +kernel

end AssignOp

end StatementEngine
