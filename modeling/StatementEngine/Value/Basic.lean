import StatementEngine.Dictionary
import StatementEngine.Number.Double
import StatementEngine.Value.Function

/-!
# Values

**What a script computes with.** Integers are 64 bits wide and wrap around. Lists and maps are
values: a copy that is changed leaves the one it was copied from as it was. The entries of a map
are a `Dictionary`, so they come in rising order of their keys.
-/

namespace StatementEngine

/-- A script value. -/
inductive Value where
  | nil
  | bool (b : Bool)
  | int (n : Int64)
  | float (x : Double)
  | str (s : String)
  | list (items : List Value)
  | map (entries : Dictionary Value none)
  | function (f : FunctionRef)
  deriving Inhabited

/-- The kinds of values that messages name. -/
inductive ValueType where
  | nil
  | bool
  | int
  | float
  | string
  | list
  | map
  | function
  deriving DecidableEq

/-- The name of a kind of value. -/
def ValueType.name : ValueType → String
  | nil => "nil"
  | bool => "bool"
  | int => "int"
  | float => "float"
  | string => "string"
  | list => "list"
  | map => "map"
  | function => "function"

namespace Value

def type : Value → ValueType
  | nil => .nil
  | bool _ => .bool
  | int _ => .int
  | float _ => .float
  | str _ => .string
  | list _ => .list
  | map _ => .map
  | function _ => .function

/-- Zeros, empty collections, the empty string, `false` and `nil` do not hold; all else does. -/
def isTruthy : Value → Bool
  | nil => false
  | bool b => b
  | int n => n != 0
  | float x => !x.isZero
  | str s => s != ""
  | list items => !items.isEmpty
  | map entries => !entries.isEmpty
  | function _ => true

def isNil : Value → Bool
  | nil => true
  | _ => false

/-- Zero, one or many values as one: nothing is `nil`, one value is itself, several are a list. -/
def collapse : List Value → Value
  | [] => nil
  | [v] => v
  | vs => list vs

/-- A natural number as an integer value. -/
def ofNat (n : Nat) : Value := int (Int64.ofNat n)

/-- The element that an integer selects in a list: none for a negative one. -/
def index? (items : List Value) (n : Int64) : Option Value :=
  if n < 0 then none else items[n.toInt.toNat]?

end Value

end StatementEngine
