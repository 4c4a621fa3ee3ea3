import StatementEngine.Engine.Crew

/-!
# A host at work

**A host has an engine and names for some scopes.** It works in steps; each step is a command, and
each command has a reply. The scopes that a host knows are numbered by handles in the order in which
it got them, so a handle says nothing about the scopes that scripts have made in between.
-/

namespace StatementEngine

/-- The answer to a step of a host. -/
inductive Reply where
  | done
  | value (v : Value)
  | failed (e : EngineError)
  | raised (r : Raise)
  /-- A function of the host has panicked outside of any task. -/
  | panicked
  /-- The step has no end. -/
  | endless
  | scope (handle : Option Nat)
  | parent (handle : Option Nat)
  | contains (yes : Bool)
  | local (value : Option Value)
  | names (names : List Name)
  | moduleNames (names : List Name)
  | bindings (bindings : List (Name × Option Value))
  | same (yes : Bool)
  | description (text : String)
  | completion (c : Completion)
  | execution (x : Execution)
  | notAFunction (type : ValueType)
  | maxCallDepth (limit : Option Nat)
  | task (reply : TaskReply)

/-- An engine with its workers and with the scopes that its host knows. -/
structure Host where
  config : Config
  state : State
  crew : Crew
  handles : Array ScopeId

namespace Host

/-- A host with one scope, whose handle is 0. -/
def start (config : Config) (strategy : Strategy) (sink : SinkKind) : Host :=
  let (root, state) := (State.initial strategy sink).newRoot
  ⟨config, state, .empty, #[root]⟩

/-- The scope of a handle. -/
def scope (h : Host) (handle : Nat) : ScopeId := h.handles[handle]?.getD ⟨0⟩

/-- The handle of a scope. -/
def handle? (h : Host) (s : ScopeId) : Option Nat := h.handles.toList.findIdx? (· == s)

/-- Takes on a scope that has just been made. -/
def adopt (h : Host) (made : ScopeId × State) : Reply × Host :=
  (.scope (some h.handles.size),
    { h with state := made.2, handles := h.handles.push made.1 })

/-- Runs a computation and turns its outcome into a reply. -/
def run (h : Host) (x : Exec ε α) (reply : Outcome ε α → Reply) : Reply × Host :=
  match Crew.run h.config x h.crew h.state with
  | some (o, crew, state) => (reply o, { h with state, crew })
  | none => (.endless, h)

end Host

/-- The reply for an outcome, by what it says of a value and of an error. -/
def Outcome.reply (value : α → Reply) (error : ε → Reply) : Outcome ε α → Reply
  | .ok a => value a
  | .raised e => error e
  | .panicked _ => .panicked

end StatementEngine
