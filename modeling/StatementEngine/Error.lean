import StatementEngine.Name
import StatementEngine.Signal
import StatementEngine.Value.Text

/-!
# Errors and throws

**Two ways of failing.** An `EngineError` is a fault of the script's structure: no handler of a
script sees it, and it ends the whole run. A throw carries a value of the script and can be caught.
An expression may fail either way, which is a `Raise`.

Both may have a position. It is filled in where an error passes a place that knows one:
`EngineError.locate` sets it, `fillPosition` only fills a gap. All wording is in
`ErrorKind.message`.
-/

namespace StatementEngine

/-- The causes of errors. -/
inductive ErrorKind where
  | undefinedName (name : Name)
  | breakOutsideLoop
  | continueOutsideLoop
  | returnOutsideFunction
  | cardinalityMismatch (targets values : Nat)
  | notIterable (type : ValueType)
  | notInvokable
  | moduleEscape (name : Name) (signal : SignalKind)
  | uncaughtThrow (value : Value)
  | recursionLimit (limit : Nat)
  | cancelled
  | unknownModule (name : Name)
  | unknownMember (owner member : Name)
  | invalidOperation (text : String)

namespace ErrorKind

/-- The name of a cause. -/
def name : ErrorKind → String
  | undefinedName _ => "UndefinedName"
  | breakOutsideLoop => "BreakOutsideLoop"
  | continueOutsideLoop => "ContinueOutsideLoop"
  | returnOutsideFunction => "ReturnOutsideFunction"
  | cardinalityMismatch .. => "CardinalityMismatch"
  | notIterable _ => "NotIterable"
  | notInvokable => "NotInvokable"
  | moduleEscape .. => "ModuleEscape"
  | uncaughtThrow _ => "UncaughtThrow"
  | recursionLimit _ => "RecursionLimit"
  | cancelled => "Cancelled"
  | unknownModule _ => "UnknownModule"
  | unknownMember .. => "UnknownMember"
  | invalidOperation _ => "InvalidOperation"

/-- What went wrong, in words. -/
def message : ErrorKind → String
  | undefinedName name => "undefined name: " ++ name
  | breakOutsideLoop => "break outside of a loop"
  | continueOutsideLoop => "continue outside of a loop"
  | returnOutsideFunction => "return outside of a function"
  | cardinalityMismatch targets values =>
    "assignment mismatch: " ++ toString targets ++ " targets but " ++ toString values ++ " values"
  | notIterable type => "cannot iterate over " ++ type.name
  | notInvokable => "spawn requires a call expression"
  | moduleEscape name signal => signal.keyword ++ " cannot escape module " ++ name
  | uncaughtThrow value => "uncaught exception: " ++ value.text
  | recursionLimit limit => "maximum call depth exceeded (limit: " ++ toString limit ++ ")"
  | cancelled => "task cancelled"
  | unknownModule name => "unknown module: " ++ name
  | unknownMember owner member => "module " ++ owner ++ " has no member " ++ member
  | invalidOperation text => text

/-- The failure is one of a single operation. It says nothing of signals, of the limit on calls or
of a request to stop. -/
def OfOperation : ErrorKind → Prop
  | undefinedName _ | cardinalityMismatch .. | notIterable _ | notInvokable => True
  | unknownModule _ | unknownMember .. | invalidOperation _ => True
  | _ => False

end ErrorKind

/-- The end of a message: the position, if there is one. -/
def positionSuffix : Option Position → String
  | none => ""
  | some p => " at " ++ p.text

/-- A fault that ends the run. -/
structure EngineError where
  kind : ErrorKind
  position : Option Position

namespace EngineError

/-- An error without a position. -/
def ofKind (kind : ErrorKind) : EngineError := ⟨kind, none⟩

/-- The error at a position, whatever it had before. -/
def locate (e : EngineError) (p : Position) : EngineError := { e with position := some p }

/-- The error at its own position, or at the given one if it has none. -/
def fillPosition (e : EngineError) (p : Position) : EngineError :=
  { e with position := e.position.or (some p) }

def text (e : EngineError) : String := e.kind.message ++ positionSuffix e.position

@[simp] theorem locate_position (e : EngineError) (p : Position) :
    (e.locate p).position = some p := rfl

@[simp] theorem locate_kind (e : EngineError) (p : Position) : (e.locate p).kind = e.kind := rfl

@[simp] theorem fillPosition_position (e : EngineError) (p : Position) :
    (e.fillPosition p).position = some (e.position.getD p) := by
  cases h : e.position <;> simp [fillPosition, h]

@[simp] theorem fillPosition_kind (e : EngineError) (p : Position) :
    (e.fillPosition p).kind = e.kind := rfl

end EngineError

/-- How an expression fails. -/
inductive Raise where
  | thrown (value : Value) (position : Option Position)
  | failed (error : EngineError)

namespace Raise

/-- The error of a cause, not located yet. -/
def ofKind (kind : ErrorKind) : Raise := failed (.ofKind kind)

/-- Fills in a position where there is none. -/
def fillPosition : Raise → Position → Raise
  | thrown v at?, p => thrown v (at?.or (some p))
  | failed e, p => failed (e.fillPosition p)

def position? : Raise → Option Position
  | thrown _ p => p
  | failed e => e.position

def text : Raise → String
  | thrown v p => (ErrorKind.uncaughtThrow v).message ++ positionSuffix p
  | failed e => e.text

/-- A throw, or the failure of a single operation. -/
def OfOperation : Raise → Prop
  | thrown .. => True
  | failed e => e.kind.OfOperation

/-- The error is a request to stop that a task has followed. -/
def isCancelled : Raise → Bool
  | failed ⟨.cancelled, _⟩ => true
  | _ => false

end Raise

end StatementEngine
