import StatementEngine.Name
import StatementEngine.Position
import StatementEngine.Syntax.Operator
import StatementEngine.Value.Basic

/-!
# Scripts

**A script is a list of statements.** A statement has a position and a form; the forms are those of
`Form`. Expressions may hold function literals, whose bodies are lists of statements again, so the
trees are defined together.

Blocks that may be absent are optional lists: `none` and an empty block run alike, but they are
different trees.
-/

namespace StatementEngine

mutual

/-- An expression. -/
inductive Expr where
  | literal (value : Value)
  | variable (name : Name)
  | list (items : List Expr)
  | binary (op : BinaryOp) (left right : Expr)
  /-- An element of a map or of a list. -/
  | index (target key : Expr)
  | call (callee : Expr) (args : List Expr)
  | function (literal : FunctionLiteral)
  /-- A variable of a registered module. -/
  | member (owner name : Name)
  /-- Fails with a message. -/
  | fail (message : String)
  /-- Throws a value. -/
  | raise (value : Expr)
  /-- Sets a variable and yields its new value. -/
  | set (name : Name) (value : Expr)

/-- A function as it is written. -/
structure FunctionLiteral where
  name : String
  params : List Name
  body : List Stmt

/-- A statement. -/
structure Stmt where
  position : Position
  form : Form

/-- The forms of statements. -/
inductive Form where
  | expr (e : Expr)
  /-- The first branch whose condition holds, or else the block at the end. -/
  | ifChain (branches : List Branch) (otherwise : Option (List Stmt))
  | tryCatch (body : List Stmt) (handler : Option Handler) (cleanup : Option (List Stmt))
  /-- A loop over the rows of a value. -/
  | forIn (vars : List Name) (iterable : Expr) (body : List Stmt)
  /-- A loop with a start, a condition and an update. -/
  | forClauses (init : Option Stmt) (condition update : Option Expr) (body : List Stmt)
  /-- A loop with at most a condition. -/
  | loop (condition : Option Expr) (body : List Stmt)
  | breakLoop
  | continueLoop
  | returnValues (values : List Expr)
  | throwValue (value : Expr)
  | moduleBlock (name : Name) (body : List Stmt)
  | switch (subject : Expr) (cases : List Case) (default : Option (List Stmt))
  | var (names : List Name) (values : List Expr)
  | assign (targets : List Target) (op : AssignOp) (values : List Expr)
  /-- An assignment of a value and of whether it is there. -/
  | assignFound (targets : List Target) (value : Expr)
  | spawn (call : Expr)

/-- A condition and the block that runs when it holds. -/
structure Branch where
  position : Position
  condition : Expr
  body : List Stmt

/-- The block that runs when a value is thrown, and the variable that holds the value. -/
structure Handler where
  position : Position
  binding : Option Name
  body : List Stmt

/-- Candidates of a switch and the block that runs when one of them matches. -/
structure Case where
  position : Position
  values : List Expr
  body : List Stmt

/-- The left-hand side of an assignment. -/
inductive Target where
  | variable (position : Position) (name : Name)
  | place (position : Position) (place : Expr)

end

/-- The statements of a body. -/
abbrev Block : Type := List Stmt

namespace Target

def position : Target → Position
  | .variable p _ => p
  | .place p _ => p

end Target

namespace Form

/-- The name of a form. -/
def kind : Form → String
  | expr .. => "expr"
  | ifChain .. => "if"
  | tryCatch .. => "try"
  | forIn .. => "for-in"
  | forClauses .. => "c-for"
  | loop .. => "loop"
  | breakLoop => "break"
  | continueLoop => "continue"
  | returnValues .. => "return"
  | throwValue .. => "throw"
  | moduleBlock .. => "module"
  | switch .. => "switch"
  | var .. => "var"
  | assign .. => "assign"
  | assignFound .. => "map-item-assign"
  | spawn .. => "spawn"

/-- The positions of the clauses of a form: its branches, handler, start, cases or targets. -/
def clausePositions : Form → List Position
  | ifChain branches _ => branches.map (·.position)
  | tryCatch _ handler _ => handler.toList.map (·.position)
  | forClauses init _ _ _ => init.toList.map (·.position)
  | switch _ cases _ => cases.map (·.position)
  | assign targets _ _ => targets.map (·.position)
  | assignFound targets _ => targets.map (·.position)
  | _ => []

end Form

end StatementEngine
