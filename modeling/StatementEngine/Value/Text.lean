import StatementEngine.Number.Layout
import StatementEngine.Text.Quoted
import StatementEngine.Value.Basic

/-!
# The text of values

**Two texts.** `Value.text` is what a script's user reads: strings stand as they are, numbers in the
plain layout. `Value.describe` shows what a value is: each kind is named and strings are quoted.
-/

namespace StatementEngine

namespace FunctionRef

/-- The text of a function. -/
def text (f : FunctionRef) : String := "<function " ++ f.name ++ ">"

end FunctionRef

namespace Value

/-- Parts with a comma between them. -/
def commas (parts : List String) : String := ", ".intercalate parts

/-- Parts between braces. -/
def braces (parts : List String) : String := "\x7b" ++ commas parts ++ "\x7d"

/-- Parts between square brackets. -/
def brackets (parts : List String) : String := "[" ++ commas parts ++ "]"

mutual

/-- A value as its user reads it. -/
def text : Value → String
  | nil => "nil"
  | bool b => if b then "true" else "false"
  | int n => toString n.toInt
  | float x => NumberLayout.plain.text x
  | str s => s
  | list items => brackets (textItems items)
  | map entries => braces (textEntries entries)
  | function f => f.text

def textItems : List Value → List String
  | [] => []
  | v :: vs => text v :: textItems vs

def textEntries {low : Option String} : Dictionary Value low → List String
  | .nil => []
  | .cons k _ v rest => (k ++ ": " ++ text v) :: textEntries rest

end

mutual

/-- A value with its kind. -/
def describe : Value → String
  | nil => "Nil"
  | bool b => "Bool(" ++ (if b then "true" else "false") ++ ")"
  | int n => "Int(" ++ toString n.toInt ++ ")"
  | float x => "Float(" ++ NumberLayout.explicit.text x ++ ")"
  | str s => "Str(" ++ Text.quote s ++ ")"
  | list items => "List(" ++ brackets (describeItems items) ++ ")"
  | map entries => "Map(" ++ braces (describeEntries entries) ++ ")"
  | function f => "Function(" ++ f.text ++ ")"

def describeItems : List Value → List String
  | [] => []
  | v :: vs => describe v :: describeItems vs

def describeEntries {low : Option String} : Dictionary Value low → List String
  | .nil => []
  | .cons k _ v rest => (Text.quote k ++ ": " ++ describe v) :: describeEntries rest

end

end Value

end StatementEngine
