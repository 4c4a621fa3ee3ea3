import StatementEngine.Proofs.Assignment.Unpacking
import StatementEngine.Proofs.CallBoundary
import StatementEngine.Proofs.Closures.Collecting
import StatementEngine.Proofs.Sealing

/-!
# Functions that read and set a variable

**A variable behind a getter and a setter.** A getter returns the value of the variable that it has
captured, whatever it is called with, and changes no scope that is there (`runs_getter`). A setter
sets the variable to its argument, and changes no other variable (`runs_setter`). Each call runs in
a scope of its own below the captured one.
-/

namespace StatementEngine

/-- The function returns the variable. -/
inductive FunctionLiteral.Gets (x : Name) : FunctionLiteral → Prop
  | intro (name : String) (p : Position) : Gets x ⟨name, [], [⟨p, .returnValues [.variable x]⟩]⟩

/-- The function sets the variable to its argument, which has another name. -/
inductive FunctionLiteral.Sets (x : Name) : FunctionLiteral → Prop
  | intro (name : String) (p q : Position) (y : Name) (other : y ≠ x) :
      Sets x ⟨name, [y], [⟨p, .assign [.variable q x] .assign [.variable y]⟩]⟩

theorem FunctionLiteral.Gets.reads {x : Name} {literal : FunctionLiteral} (h : literal.Gets x) :
    literal.Reads := by
  obtain ⟨name, p⟩ := h
  exact ⟨p, x, rfl⟩

/-- The value that a function with one parameter is given. -/
def firstArgument (args : List Value) : Value := args.head?.getD .nil

theorem parameters_singleton (y : Name) (args : List Value) :
    Exec.parameters [y] args = [(y, firstArgument args)] := by
  cases args <;> simp [Exec.parameters, firstArgument]

/-- A call that may be made: it is below the limit, and its task has not been asked to stop. -/
structure State.MayCall (config : Config) (s : State) : Prop where
  awake : s.stopRequested = false
  below : ∀ max ∈ config.maxCallDepth, s.callDepth < max

variable {config : Config} {s u : State} {cell : ScopeId} {x : Name} {v : Value} {k : Nat}
  {c : Closure} {name : String} {args : List Value}

/-! ## Calls -/

/-- A call runs the body of the function in a new scope below the one that has been captured. -/
theorem runs_call_closure {b : Outcome EngineError Completion}
    (known : s.closures[k]? = some c) (may : s.MayCall config)
    (body : Runs config (Exec.runBlock c.literal.body s.scopes.next .function)
      { s.framed c args with callDepth := s.callDepth + 1 } b u) :
    Runs config (Exec.call (.closure k name) args) s b.asCall
      { u with callDepth := u.callDepth - 1 } := by
  refine runs_call_iff.mpr ?_
  rw [Runs, callBody_closure name args known]
  exact runs_callBlock_iff.mpr (Or.inr ⟨may.below, b, u, body, rfl, rfl⟩)

theorem scope?_framed (there : cell.index < s.scopes.scopes.size) :
    (s.framed c args).scopes.scope? cell = s.scopes.scope? cell := by
  refine ScopeStore.scope?_framed_of_ne ?_
  rintro rfl
  exact Nat.lt_irrefl _ there

theorem parent?_framed (there : c.scope.index < s.scopes.scopes.size) :
    (s.framed c args).scopes.parent? s.scopes.next = some c.scope :=
  ScopeStore.parent?_framed there

/-- The scope of a call binds the parameters. -/
theorem local?_framed (x : Name) : (s.framed c args).scopes.local? s.scopes.next x
    = boundValue? x (Exec.parameters c.literal.params args).reverse :=
  ScopeStore.local?_framed x

/-- A name that is no parameter means in a call what it means where the function was captured. -/
theorem get?_framed_of_captured (there : c.scope.index < s.scopes.scopes.size)
    (free : (s.framed c args).scopes.local? s.scopes.next x = none) :
    (s.framed c args).scopes.get? s.scopes.next x = (s.framed c args).scopes.get? c.scope x :=
  ScopeStore.get?_of_unbound free (parent?_framed there)

theorem runs_returnVariable {p : Position} {scope : ScopeId} (awake : s.stopRequested = false)
    (seen : s.scopes.get? scope x = some v) :
    Runs config (Exec.runBlock [⟨p, .returnValues [.variable x]⟩] scope .function) s
      (.ok ⟨none, .returned [v]⟩) s := by
  refine (runs_block_singleton_iff awake).mpr (runs_execute_iff.mpr ?_)
  refine runs_located_ok_iff.mpr (Or.inl ?_)
  exact (runs_bind_of_ok (runs_evaluateAll_singleton (asks_variable seen).runs)).mpr
    (runs_pure_iff.mpr ⟨rfl, rfl⟩)

theorem runs_copyVariable {p q : Position} {scope : ScopeId} {y : Name} {scopes : ScopeStore}
    (awake : s.stopRequested = false) (seen : s.scopes.get? scope y = some v)
    (stored : s.scopes.set? scope x v = some scopes) :
    Runs config (Exec.runBlock [⟨p, .assign [.variable q x] .assign [.variable y]⟩] scope .function)
      s (.ok (.ofValue v)) { s with scopes } :=
  (runs_block_singleton_iff awake).mpr (runs_assign_variable (asks_variable seen).runs stored)

/-- A getter returns the value of its variable. -/
theorem runs_getter {literal : FunctionLiteral} (gets : literal.Gets x)
    (known : s.closures[k]? = some ⟨literal, cell⟩) (holds : s.scopes.local? cell x = some v)
    (may : s.MayCall config) :
    Runs config (Exec.call (.closure k name) args) s (.ok v) (s.framed ⟨literal, cell⟩ args) := by
  obtain ⟨f, p⟩ := gets
  have there := ScopeStore.lt_of_local? holds
  have free : (s.framed ⟨⟨f, [], [⟨p, .returnValues [.variable x]⟩]⟩, cell⟩ args).scopes.local?
      s.scopes.next x = none :=
    ScopeStore.local?_framed x
  have above : (s.framed ⟨⟨f, [], [⟨p, .returnValues [.variable x]⟩]⟩, cell⟩ args).scopes.local?
      cell x = some v :=
    (ScopeStore.local?_congr (scope?_framed there) x).trans holds
  have seen := (get?_framed_of_captured there free).trans (ScopeStore.get?_of_local? above)
  exact runs_call_closure known may (runs_returnVariable may.awake seen)

/-- A setter sets its variable and yields the value. -/
theorem runs_setter {literal : FunctionLiteral} (sets : literal.Sets x)
    (known : s.closures[k]? = some ⟨literal, cell⟩) (holds : s.scopes.local? cell x = some v)
    (may : s.MayCall config) :
    Runs config (Exec.call (.closure k name) args) s (.ok (firstArgument args))
      { s.framed ⟨literal, cell⟩ args with
        scopes := (s.framed ⟨literal, cell⟩ args).scopes.define cell x (firstArgument args) } := by
  obtain ⟨f, p, q, y, other⟩ := sets
  have there := ScopeStore.lt_of_local? holds
  generalize same :
    (⟨f, [y], [⟨p, .assign [.variable q x] .assign [.variable y]⟩]⟩ : FunctionLiteral) = literal
      at known ⊢
  -- the scope of the call binds the parameter and nothing else
  have own : ∀ n, (s.framed ⟨literal, cell⟩ args).scopes.local? s.scopes.next n
      = if y = n then some (firstArgument args) else none := by
    intro n
    rw [local?_framed, ← same, parameters_singleton]
    simp [boundValue?]
  have given : (s.framed ⟨literal, cell⟩ args).scopes.get? s.scopes.next y
      = some (firstArgument args) :=
    ScopeStore.get?_of_local? (by rw [own, if_pos rfl])
  have found : (s.framed ⟨literal, cell⟩ args).scopes.definer? s.scopes.next x = some cell := by
    refine ScopeStore.definer?_eq_some_iff.mpr ⟨.up ?_ (parent?_framed there) .here, ?_⟩
    · rw [own, if_neg other]
    · rw [ScopeStore.local?_congr (scope?_framed there), holds]
      rfl
  have stored : (s.framed ⟨literal, cell⟩ args).scopes.set? s.scopes.next x (firstArgument args)
      = some _ := ScopeStore.set?_eq_some_iff.mpr ⟨cell, found, rfl⟩
  subst same
  exact runs_call_closure known may (runs_copyVariable may.awake given stored)

end StatementEngine
