import StatementEngine.Error
import StatementEngine.Scope.Store

/-!
# Registered modules

**A module is a scope with a name.** Its members are the names bound in that very scope; what the
scope merely sees from its parents is no member. Members are read when they are asked for, so a
later change of a binding shows.
-/

namespace StatementEngine

/-- The scopes of the registered modules. -/
abbrev Registry : Type := Dictionary ScopeId none

namespace Registry

/-- Registers a scope under a name; a module that had the name is replaced. -/
def register (modules : Registry) (name : Name) (scope : ScopeId) : Registry :=
  Dictionary.insert modules name scope above_none

theorem find?_register (modules : Registry) (name n : Name) (scope : ScopeId) :
    (modules.register name scope).find? n = if n = name then some scope else modules.find? n :=
  Dictionary.find?_insert modules name n scope above_none

/-- The value of a member of a module. -/
def resolve (modules : Registry) (store : ScopeStore) (owner member : Name) :
    Except ErrorKind Value :=
  match modules.find? owner with
  | none => .error (.unknownModule owner)
  | some scope =>
    match store.local? scope member with
    | none => .error (.unknownMember owner member)
    | some v => .ok v

end Registry

end StatementEngine
