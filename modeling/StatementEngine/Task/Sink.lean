import StatementEngine.Task.Basic

/-!
# Where failures go

**Each failed task is reported once.** A sink may write failures to a log that nobody reads back,
keep them until they are taken, or hand them to the host at once.
-/

namespace StatementEngine

/-- What is done with failures. -/
inductive SinkKind where
  | log
  | buffer
  | callback
  deriving DecidableEq, Inhabited

/-- A sink with the failures it keeps and those it has handed to the host, oldest first. -/
structure Sink where
  kind : SinkKind
  kept : Array Failure
  delivered : Array Failure
  deriving Inhabited

namespace Sink

/-- A sink that has not been told anything. -/
def ofKind (kind : SinkKind) : Sink := ⟨kind, #[], #[]⟩

/-- Takes in a failure. -/
def report (s : Sink) (f : Failure) : Sink :=
  match s.kind with
  | .log => s
  | .buffer => { s with kept := s.kept.push f }
  | .callback => { s with delivered := s.delivered.push f }

/-- Hands out the kept failures and forgets them. -/
def take (s : Sink) : Array Failure × Sink := (s.kept, { s with kept := #[] })

/-- A sink in the form that shows what it is. -/
def describe (s : Sink) : String :=
  match s.kind with
  | .log => "ErrorSinkImpl::Log"
  | .buffer => "ErrorSinkImpl::Buffer(" ++ toString s.kept.size ++ ")"
  | .callback => "ErrorSinkImpl::Callback"

end Sink

end StatementEngine
