import StatementEngine.Session.Host

/-!
# Scopes and modules in steps

**What a host can do with scopes by hand**: make them, bind and read names, look at them, and
register them as modules.
-/

namespace StatementEngine

/-- A step on a scope. -/
inductive ScopeCommand where
  | new
  | child
  | define (name : Name) (value : Value)
  | get (name : Name)
  | set (name : Name) (value : Value)
  | contains (name : Name)
  | getLocal (name : Name)
  | names
  | dump
  | parent
  | same (other : Nat)
  | describe

/-- A step on the registered modules. -/
inductive RegistryCommand where
  | register (name : Name)
  | lookup (name : Name)
  | has (name : Name)
  | resolve (owner member : Name)
  | names

/-- The bindings of a scope in the form that shows what they are. -/
def Scope.describe (s : Scope) : String :=
  Value.braces (s.bindings.map fun (n, v) => Text.quote n ++ ": " ++ v.describe)

namespace Host

/-- Carries out a step on the scope of a handle. -/
def scopeStep (h : Host) (handle : Nat) (c : ScopeCommand) : Reply × Host :=
  let s := h.scope handle
  let store := h.state.scopes
  match c with
  | .new => h.adopt h.state.newRoot
  | .child => h.adopt (h.state.newChild s)
  | .define name value => h.run (Exec.define s name value : Exec EngineError Unit) fun _ => .done
  | .get name =>
    h.run (Exec.readVariable s name) (Outcome.reply .value fun k => .failed (.ofKind k))
  | .set name value =>
    h.run (Exec.setVariable s name value)
      (Outcome.reply (fun _ => .done) fun k => .failed (.ofKind k))
  | .contains name => (.contains (store.contains s name), h)
  | .getLocal name => (.local (store.local? s name), h)
  | .names => (.names (store.names s), h)
  | .dump => (.bindings ((store.names s).map fun n => (n, store.local? s n)), h)
  | .parent => (.parent ((store.parent? s).bind h.handle?), h)
  | .same other => (.same (s == h.scope other), h)
  | .describe => (.description ((store.scope? s).elim "" Scope.describe), h)

/-- Carries out a step on the registered modules; a scope is registered by its handle. -/
def registryStep (h : Host) (handle : Nat) (c : RegistryCommand) : Reply × Host :=
  let modules := h.state.modules
  match c with
  | .register name =>
    (.scope ((modules.find? name).bind h.handle?),
      { h with state := { h.state with modules := modules.register name (h.scope handle) } })
  | .lookup name => (.scope ((modules.find? name).bind h.handle?), h)
  | .has name => (.contains (modules.find? name).isSome, h)
  | .resolve owner member =>
    match modules.resolve h.state.scopes owner member with
    | .ok v => (.value v, h)
    | .error k => (.failed (.ofKind k), h)
  | .names => (.names modules.keys, h)

end Host

end StatementEngine
