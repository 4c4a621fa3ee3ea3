import StatementEngine.Engine.Exec
import StatementEngine.Value.Operation

/-!
# Expressions

**Operands from left to right, and nothing twice.** A call evaluates its callee first and refuses
one that is no function before it looks at the arguments. A function literal captures the scope it
is evaluated in.

Expressions know no positions: what they raise is located by the statement, branch, case or target
that evaluates them.
-/

namespace StatementEngine

namespace Exec

/-- Evaluates expressions in order. -/
def evaluateAll (scope : ScopeId) : List Expr → Exec Raise (List Value)
  | [] => pure []
  | e :: rest => do
    let v ← evaluate e scope
    let vs ← evaluateAll scope rest
    pure (v :: vs)

/-- Evaluates the callee and the arguments of a call. -/
def evaluateCall (scope : ScopeId) (callee : Expr) (args : List Expr) :
    Exec Raise (FunctionRef × List Value) := do
  match ← evaluate callee scope with
  | .function f => do
    let vs ← evaluateAll scope args
    pure (f, vs)
  | _ => raise (.ofKind (.invalidOperation "value is not callable"))

/-- Makes a function of a literal. -/
def capture (literal : FunctionLiteral) (scope : ScopeId) : Exec ε Value :=
  modifyGet fun s =>
    (.function (.closure s.closures.size literal.name),
      { s with closures := s.closures.push ⟨literal, scope⟩ })

/-- The answer to `Request.evaluate`. -/
def evaluateBody (e : Expr) (scope : ScopeId) : Exec Raise Value :=
  match e with
  | .literal v => pure v
  | .variable name => (readVariable scope name).mapError .ofKind
  | .list items => do
    let vs ← evaluateAll scope items
    pure (.list vs)
  | .binary op left right => do
    let a ← evaluate left scope
    let b ← evaluate right scope
    ofExcept .ofKind (op.apply a b)
  | .index target key => do
    let t ← evaluate target scope
    let k ← evaluate key scope
    ofExcept .ofKind (t.element k)
  | .call callee args => do
    let (f, vs) ← evaluateCall scope callee args
    call f vs
  | .function literal => capture literal scope
  | .member owner name => do
    let r ← read fun s => s.modules.resolve s.scopes owner name
    ofExcept .ofKind r
  | .fail message => raise (.ofKind (.invalidOperation message))
  | .raise value => do
    let v ← evaluate value scope
    raise (.thrown v none)
  | .set name value => do
    let v ← evaluate value scope
    (setVariable scope name v).mapError .ofKind
    pure v

/-- Assigns to a place: an element of a variable's container. The container is copied, changed and
set back. -/
def assignPlace (place : Expr) (value : Value) (scope : ScopeId) : Exec Raise Unit :=
  match place with
  | .index (.variable name) key => do
    let k ← evaluate key scope
    let container ← (readVariable scope name).mapError .ofKind
    let changed ← ofExcept .ofKind (container.withElement k value)
    (setVariable scope name changed).mapError .ofKind
  | .index _ _ =>
    raise (.ofKind (.invalidOperation "only variables can be indexed for assignment"))
  | _ => raise (.ofKind (.invalidOperation "invalid assignment target"))

end Exec

end StatementEngine
