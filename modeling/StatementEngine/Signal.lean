import StatementEngine.Position
import StatementEngine.Value.Basic

/-!
# Signals and completions

**Every statement completes with a signal.** `Signal.none` goes on with the next statement; any
other signal leaves the list of statements and is handed to what encloses it: loops take
`breakLoop` and `continueLoop`, calls take `returned`, and a handler takes `thrown`.
-/

namespace StatementEngine

/-- Why a list of statements is left, or that it is not. -/
inductive Signal where
  | none
  | breakLoop
  | continueLoop
  | returned (values : List Value)
  | thrown (value : Value) (position : Position)
  deriving Inhabited

/-- The kinds of signals. -/
inductive SignalKind where
  | none
  | breakLoop
  | continueLoop
  | returned
  | thrown
  deriving DecidableEq

/-- The word for a kind of signal. -/
def SignalKind.keyword : SignalKind → String
  | none => "none"
  | breakLoop => "break"
  | continueLoop => "continue"
  | returned => "return"
  | thrown => "throw"

/-- What a loop does after an iteration. -/
inductive AfterIteration where
  | again
  | leave
  /-- The signal is none of the loop's business and is handed on. -/
  | handOn (signal : Signal)

namespace Signal

def kind : Signal → SignalKind
  | none => .none
  | breakLoop => .breakLoop
  | continueLoop => .continueLoop
  | returned _ => .returned
  | thrown .. => .thrown

def isNone : Signal → Bool
  | none => true
  | _ => false

/-- What a call yields for a signal: the returned values as one. -/
def returnValue? : Signal → Option Value
  | returned values => some (Value.collapse values)
  | _ => Option.none

/-- Loops consume `continueLoop` and `breakLoop`. -/
def afterIteration : Signal → AfterIteration
  | none => .again
  | continueLoop => .again
  | breakLoop => .leave
  | signal => .handOn signal

end Signal

/-- How a statement or a list of statements ended: the last value that was produced, if any, and the
signal. -/
structure Completion where
  value : Option Value
  signal : Signal
  deriving Inhabited

namespace Completion

/-- Nothing was produced and the next statement runs. -/
def empty : Completion := ⟨none, .none⟩

/-- A value was produced and the next statement runs. -/
def ofValue (v : Value) : Completion := ⟨some v, .none⟩

/-- The list of statements is left. -/
def ofSignal (s : Signal) : Completion := ⟨none, s⟩

/-- The next statement runs. -/
def isNormal (c : Completion) : Bool := c.signal.isNone

end Completion

end StatementEngine
