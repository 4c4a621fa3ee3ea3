import StatementEngine.Value.Basic

/-!
# Two equalities

**`Value.equal` is the equality of scripts**, used by `switch` and by the `Eq` operator: an integer
and a float are compared as numbers, and collections element by element in the same way.
**`Value.identical` is stricter**: values of different kinds are never identical, so the integer 1
is not the float 1. In both, a NaN is not even equal to itself, and functions are compared by
reference.
-/

namespace StatementEngine

namespace Value

/-- An integer and a float are the same number. -/
def sameNumber (n : Int64) (x : Double) : Bool := (Double.ofInt n.toInt).equal x

mutual

/-- Equality of scripts. -/
def equal : Value → Value → Bool
  | nil, nil => true
  | bool a, bool b => a == b
  | int a, int b => a == b
  | int a, float b => sameNumber a b
  | float a, int b => sameNumber b a
  | float a, float b => a.equal b
  | str a, str b => a == b
  | list as, list bs => equalItems as bs
  | map as, map bs => equalEntries as bs
  | function f, function g => f == g
  | _, _ => false

/-- Lists of the same length with equal elements at the same places. -/
def equalItems : List Value → List Value → Bool
  | [], [] => true
  | a :: as, b :: bs => equal a b && equalItems as bs
  | _, _ => false

/-- The same keys with equal values. -/
def equalEntries {low high : Option String} : Dictionary Value low → Dictionary Value high → Bool
  | .nil, .nil => true
  | .cons k _ a as, .cons l _ b bs => k == l && equal a b && equalEntries as bs
  | _, _ => false

end

mutual

/-- Equality that tells the kinds of numbers apart. -/
def identical : Value → Value → Bool
  | nil, nil => true
  | bool a, bool b => a == b
  | int a, int b => a == b
  | float a, float b => a.equal b
  | str a, str b => a == b
  | list as, list bs => identicalItems as bs
  | map as, map bs => identicalEntries as bs
  | function f, function g => f == g
  | _, _ => false

def identicalItems : List Value → List Value → Bool
  | [], [] => true
  | a :: as, b :: bs => identical a b && identicalItems as bs
  | _, _ => false

def identicalEntries {low high : Option String} :
    Dictionary Value low → Dictionary Value high → Bool
  | .nil, .nil => true
  | .cons k _ a as, .cons l _ b bs => k == l && identical a b && identicalEntries as bs
  | _, _ => false

end

end Value

end StatementEngine
