import StatementEngine.Session.Scopes

/-!
# Running scripts in steps

**A host that runs scripts.** Its first scope binds `out`, through which scripts hand it values, and
the builtins it offers. What has been recorded since the last report is added to the reply of the
step during which it was recorded; with tasks in the background no step can say so, and all of it is
reported in the end.
-/

namespace StatementEngine

/-- A step that runs something. -/
inductive ScriptCommand where
  | execute (script : Block)
  | block (body : Block)
  | statement (s : Stmt)
  | callBody (body : Block)
  | call (name : Name) (args : List Value)
  | resolve (owner member : Name)
  | moduleNames
  | config
  | describe

/-- A step of a host. -/
inductive HostCommand where
  | scope (handle : Nat) (c : ScopeCommand)
  | registry (handle : Nat) (c : RegistryCommand)
  | script (handle : Nat) (c : ScriptCommand)
  | task (c : TaskCommand)

/-- A reply with what was recorded during the step, where that can be told. -/
structure Report where
  reply : Reply
  recorded : Option (List Value)

/-- An engine in the form that shows what it is. -/
def Interpreter.describe (config : Config) (s : State) : String :=
  "Interpreter \x7b evaluator: TestEvaluator, modules: "
    ++ Value.brackets (s.modules.keys.map Name.describe)
    ++ ", scheduler: " ++ s.scheduler.describe
    ++ ", config: ExecConfig \x7b max_call_depth: "
    ++ config.maxCallDepth.elim "None" (fun n => "Some(" ++ toString n ++ ")")
    ++ " \x7d, .. \x7d"

namespace Host

/-- A host that runs scripts and offers some builtins. -/
def withBuiltins (h : Host) (builtins : List Builtin) : Host :=
  let bindings :=
    ("out", .function .recorder) :: builtins.map fun b => (b.name, .function (.builtin b))
  { h with state := { h.state with scopes := h.state.scopes.defineAll (h.scope 0) bindings } }

/-- The log, by function where the order between functions is left open. -/
def orderedLog (h : Host) : List (String × TaskReply) :=
  let log := h.state.log.toList
  if h.state.scheduler.strategy.isBackground then log.mergeSort (·.1 ≤ ·.1) else log

/-- Carries out a step on the scheduler. -/
def taskStep (h : Host) (c : TaskCommand) : Reply × Host :=
  h.run (Exec.runCommand c : Exec EngineError TaskReply) (Outcome.reply .task .failed)

/-- Calls the function that a variable holds. -/
def callVariable (h : Host) (scope : ScopeId) (name : Name) (args : List Value) : Reply × Host :=
  match h.state.scopes.get? scope name with
  | none => (.failed (.ofKind (.undefinedName name)), h)
  | some (.function f) => h.run (Exec.call f args) (Outcome.reply .value .raised)
  | some v => (.notAFunction v.type, h)

/-- Carries out a step that runs something in the scope of a handle. -/
def scriptStep (h : Host) (handle : Nat) (c : ScriptCommand) : Reply × Host :=
  let s := h.scope handle
  match c with
  | .execute script =>
    h.run (Exec.runScript h.config script s) (Outcome.reply .execution .failed)
  | .block body =>
    h.run (Exec.runBlock body s .handedOver) (Outcome.reply .completion .failed)
  | .statement stmt =>
    h.run (Exec.execute stmt s .handedOver) (Outcome.reply .completion .failed)
  | .callBody body =>
    h.run (Exec.callBlock h.config body s) (Outcome.reply .value .raised)
  | .call name args => h.callVariable s name args
  | .resolve owner member => h.registryStep handle (.resolve owner member)
  | .moduleNames => (.moduleNames h.state.modules.keys, h)
  | .config => (.maxCallDepth h.config.maxCallDepth, h)
  | .describe => (.description (Interpreter.describe h.config h.state), h)

/-- Adds what was recorded during a step to its reply, and forgets it. -/
def reported (made : Reply × Host) : Report × Host :=
  let (reply, h) := made
  if h.state.scheduler.strategy.isBackground || h.state.recorded.isEmpty then (⟨reply, none⟩, h)
  else
    (⟨reply, some h.state.recorded.toList⟩, { h with state := { h.state with recorded := #[] } })

/-- Carries out a step. -/
def step (h : Host) : HostCommand → Report × Host
  | .scope handle c =>
    let (reply, h) := h.scopeStep handle c
    (⟨reply, none⟩, h)
  | .registry handle c =>
    let (reply, h) := h.registryStep handle c
    (⟨reply, none⟩, h)
  | .script handle c => reported (h.scriptStep handle c)
  | .task c => reported (h.taskStep c)

/-- Carries out steps one after the other. -/
def steps (h : Host) : List HostCommand → List Report × Host
  | [] => ([], h)
  | c :: rest =>
    let (report, h) := h.step c
    let (reports, h) := h.steps rest
    (report :: reports, h)

end Host

end StatementEngine
