/-!
# References to functions

**A function value is a reference**, so two of them are the same value exactly when they are the
same function. What a reference does when it is called is the engine's matter
(`StatementEngine.Engine.Call`).
-/

namespace StatementEngine

/-- The functions that a host can offer to scripts for looking at the engine itself. -/
inductive Builtin where
  | depth
  | live
  | runPending
  | cancelled
  | cancel
  | cancelAll
  | status
  | raiseCancelled
  | throwAt
  | panic
  | invoke
  deriving DecidableEq

namespace Builtin

/-- The name under which a script calls the function. -/
def name : Builtin → String
  | depth => "depth"
  | live => "live"
  | runPending => "run_pending"
  | cancelled => "cancelled"
  | cancel => "cancel"
  | cancelAll => "cancel_all"
  | status => "status"
  | raiseCancelled => "raise_cancelled"
  | throwAt => "throw_at"
  | panic => "panic"
  | invoke => "invoke"

def all : List Builtin :=
  [depth, live, runPending, cancelled, cancel, cancelAll, status, raiseCancelled, throwAt, panic,
    invoke]

/-- The function that has a given name. -/
def ofName? (name : String) : Option Builtin := all.find? (·.name == name)

end Builtin

/-- A function as a value. -/
inductive FunctionRef where
  /-- A function of the host's library. -/
  | host (id : Nat) (name : String)
  /-- The function through which a script hands values to the host. -/
  | recorder
  | builtin (b : Builtin)
  /-- A function literal of a script, together with the scope it was evaluated in. -/
  | closure (id : Nat) (name : String)
  deriving DecidableEq

namespace FunctionRef

/-- The name that the function shows. -/
def name : FunctionRef → String
  | host _ name => name
  | recorder => "out"
  | builtin b => b.name
  | closure _ name => name

end FunctionRef

end StatementEngine
