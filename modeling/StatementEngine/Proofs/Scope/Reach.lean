import StatementEngine.Engine.Interpreter
import StatementEngine.Proofs.Lexical.Obedience
import StatementEngine.Proofs.Pairing.Basic
import StatementEngine.Proofs.Scope.Growth

/-!
# Scopes in reach

**What a script that starts in a scope can get at.** It sees the scope and its parents, the scopes
of registered modules, and through the functions that it finds in their variables, at any depth of
lists and maps, the scopes that these have captured (`State.InReach`). No other scope that is there
at the start can become visible, as long as literals hold no captured functions and nobody runs the
queue behind the script's back (`FunctionRef.IsQuiet`, `State.QuietFrom`).

Two states agree on some scopes (`State.AgreeOn`) if they only differ in the others.
-/

namespace StatementEngine

/-- The scope is the first one, the scope of a module, a parent of a scope in reach, or captured by
a function that a variable in reach holds. -/
inductive State.InReach (s : State) (start : ScopeId) : ScopeId → Prop
  | start : InReach s start start
  | module {name : Name} {i : ScopeId} (registered : s.modules.find? name = some i) :
      InReach s start i
  | parent {i p : ScopeId} (reached : InReach s start i) (above : s.scopes.parent? i = some p) :
      InReach s start p
  | closure {i : ScopeId} {name : Name} {v : Value} {k : Nat} {shown : String} {c : Closure}
      (reached : InReach s start i) (bound : s.scopes.local? i name = some v)
      (holds : v.Holds (.closure k shown)) (captured : s.closures[k]? = some c) :
      InReach s start c.scope

/-- The function is one of the host that touches no scope. Those of its library only do so through
the functions that they are handed. -/
def FunctionRef.IsQuiet : FunctionRef → Prop
  | .closure .. | .builtin .runPending => False
  | .host .. | .recorder | .builtin _ => True

/-- The function is a quiet one of the host, or a captured one whose literals hold only such
functions. -/
def State.Knows (s : State) : FunctionRef → Prop
  | .closure k _ =>
    ∀ c ∈ s.closures[k]?, BlockObeys (.literals FunctionRef.IsQuiet) .function c.literal.body
  | f => f.IsQuiet

/-- The variables in reach only hold functions that are known. -/
def State.QuietFrom (s : State) (start : ScopeId) : Prop :=
  ∀ i name v, s.InReach start i → s.scopes.local? i name = some v → v.Only s.Knows

/-- The states only differ in the contents of scopes, and not in those of the given ones. -/
structure State.AgreeOn (among : ScopeId → Prop) (s s' : State) : Prop where
  rest : s' = { s with scopes := s'.scopes }
  size : s'.scopes.scopes.size = s.scopes.scopes.size
  same : ∀ i, among i → s'.scopes.scope? i = s.scopes.scope? i

namespace State

variable {among : ScopeId → Prop} {s s' : State} {start i : ScopeId}

theorem AgreeOn.closures (h : s.AgreeOn among s') : s'.closures = s.closures := by rw [h.rest]

theorem AgreeOn.modules (h : s.AgreeOn among s') : s'.modules = s.modules := by rw [h.rest]

theorem AgreeOn.local? (h : s.AgreeOn among s') (hi : among i) (name : Name) :
    s'.scopes.local? i name = s.scopes.local? i name := by
  rw [ScopeStore.local?_eq, h.same i hi, ← ScopeStore.local?_eq]

end State

end StatementEngine
