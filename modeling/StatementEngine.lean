import StatementEngine.Engine.Runs
import StatementEngine.Proofs.Assignment.Elements
import StatementEngine.Proofs.Assignment.EvaluatedFirst
import StatementEngine.Proofs.Assignment.InTurn
import StatementEngine.Proofs.Assignment.Targets
import StatementEngine.Proofs.Assignment.Unpacking
import StatementEngine.Proofs.Assignment.Writes
import StatementEngine.Proofs.CallBoundary
import StatementEngine.Proofs.CallDepth
import StatementEngine.Proofs.Cancellation
import StatementEngine.Proofs.Closures.Iterations
import StatementEngine.Proofs.Contexts.InStep
import StatementEngine.Proofs.Contexts.Rejection
import StatementEngine.Proofs.CountingLoop
import StatementEngine.Proofs.DepthLimit
import StatementEngine.Proofs.ElementUpdate
import StatementEngine.Proofs.ElseIf
import StatementEngine.Proofs.EmptyScopes
import StatementEngine.Proofs.Isolation
import StatementEngine.Proofs.Lexical.ControlFlow
import StatementEngine.Proofs.Lexical.Sessions
import StatementEngine.Proofs.Location
import StatementEngine.Proofs.LoopForms
import StatementEngine.Proofs.LoopFree
import StatementEngine.Proofs.Modules.Registration
import StatementEngine.Proofs.Number.Rounding
import StatementEngine.Proofs.Number.Shortest
import StatementEngine.Proofs.Pairing.Basic
import StatementEngine.Proofs.Pairing.Calls
import StatementEngine.Proofs.Pairing.Expressions
import StatementEngine.Proofs.Pairing.Statements
import StatementEngine.Proofs.Pieces
import StatementEngine.Proofs.RangeLoop
import StatementEngine.Proofs.Run.Abort
import StatementEngine.Proofs.Run.Alike
import StatementEngine.Proofs.Run.Asked
import StatementEngine.Proofs.Scope.Declarations
import StatementEngine.Proofs.Scope.Lookup
import StatementEngine.Proofs.Scope.Operations
import StatementEngine.Proofs.Scope.Overwriting
import StatementEngine.Proofs.Scope.Reach
import StatementEngine.Proofs.SignalConfinement
import StatementEngine.Proofs.Switch
import StatementEngine.Proofs.Task.Bookkeeping
import StatementEngine.Proofs.Task.Confinement
import StatementEngine.Proofs.Task.Failures
import StatementEngine.Proofs.Task.Lifecycle
import StatementEngine.Proofs.Unwinding
import StatementEngine.Proofs.Value.Strictness
import StatementEngine.Proofs.Value.Transitivity
import StatementEngine.Resumption.Nesting
import StatementEngine.Session.Entries
import StatementEngine.Session.Reports
import StatementEngine.Session.Scripts
import StatementEngine.Session.SharedList
import StatementEngine.Syntax.Equality
