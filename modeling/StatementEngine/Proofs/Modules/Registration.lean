import StatementEngine.Proofs.Attribution
import StatementEngine.Proofs.Modules.Members
import StatementEngine.Proofs.Run.Abort
import StatementEngine.Proofs.SignalConfinement

/-!
# Modules are registered when they are complete

**A module statement runs its body in a new scope and registers this scope if the body ends
normally** (`EndsModule`). Otherwise it fails, and nothing around it can do anything about that
(`Exec.AbortsAtStatements`).

* Nothing else registers anything, so the registry is at all times what the module statements that
  have succeeded have made of it (`Chronicle.registry`).
* A module that is registered has as its members the variables that its body has declared itself.
  Neither what its body merely sees nor what is declared in blocks of the body is a member. The
  value of a member is the value that its variable has at the time, whoever has set it
  (`Publishes`).

The main result is `modules_registered`.
-/

namespace StatementEngine

variable {config : Config} {start s t u : State} {past : Chronicle} {e : Occurrence}
  {p : Position} {name : Name} {body : Block} {scope d : ScopeId} {cx : Context} {ε α : Type}

/-! ## A module statement -/

/-- How a module statement ends if its body ends in some way, and the state then. The body has been
run in a scope that is new. -/
inductive EndsModule (p : Position) (name : Name) (d : ScopeId) :
    Outcome EngineError Completion → State → Outcome EngineError Completion → State → Prop
  /-- The body ends normally. -/
  | registered {c : Completion} {u : State} (normal : c.isNormal = true) :
      EndsModule p name d (.ok c) u (.ok .empty) { u with modules := u.modules.register name d }
  /-- The body throws. Other signals do not come out of a module. -/
  | escaped {value : Option Value} {v : Value} {at? : Position} {u : State} :
      EndsModule p name d (.ok ⟨value, .thrown v at?⟩) u
        (.raised ⟨.moduleEscape name .thrown, some p⟩) u
  | failed {e : EngineError} {u : State} : EndsModule p name d (.raised e) u (.raised e) u
  | panicked {m : String} {u : State} : EndsModule p name d (.panicked m) u (.panicked m) u

/-- A module statement runs its body in a new scope, and ends accordingly. -/
theorem runs_module_iff {o : Outcome EngineError Completion} :
    Runs config (Exec.execute ⟨p, .moduleBlock name body⟩ scope cx) s o t ↔
      ∃ b u, Runs config (Exec.runBlock body s.scopes.next .ofModule) (s.newChild scope).2 b u ∧
        EndsModule p name s.scopes.next b u o t := by
  rw [runs_execute_iff, Runs, Exec.executeBody_module, Resumption.evaluates_ask_iff]
  constructor
  · rintro ⟨b, u, body, ends⟩
    have run := runs_block_iff.mpr body
    refine ⟨b, u, run, ?_⟩
    cases b with
    | panicked m =>
        obtain ⟨rfl, rfl⟩ := Resumption.evaluates_done_iff.mp ends
        exact .panicked
    | raised e =>
        obtain ⟨rfl, rfl⟩ := Resumption.evaluates_done_iff.mp ends
        -- the error of a block has a position already
        rw [EngineError.fillPosition_of_isSome (position_of_runs_runFrom body)]
        exact .failed
    | ok c =>
        obtain ⟨value, signal⟩ := c
        have lets := lets_of_runs_block run
        cases signal with
        | none =>
            obtain ⟨rfl, rfl⟩ := Resumption.evaluates_done_iff.mp ends
            exact .registered rfl
        | thrown v at? =>
            obtain ⟨rfl, rfl⟩ := Resumption.evaluates_done_iff.mp ends
            exact .escaped
        | breakLoop | continueLoop | returned vs => cases lets
  · rintro ⟨b, u, run, ends⟩
    have body := runs_block_iff.mp run
    refine ⟨b, u, body, ?_⟩
    cases ends with
    | registered normal =>
        dsimp only
        rw [normal]
        exact .done _ _
    | escaped => exact .done _ _
    | failed =>
        dsimp only
        rw [EngineError.fillPosition_of_isSome (position_of_runs_runFrom body)]
        exact .done _ _
    | panicked => exact .done _ _

/-! ## Statements that fail -/

/-- Whatever statement fails inside of the computation, the computation fails with the same error.
It asks nothing more and leaves the state as it is, at its own call depth. -/
def Exec.AbortsAtStatements (config : Config) (x : Exec ε α) (fail : EngineError → ε) : Prop :=
  ∀ s before stmt scope cx u within e t,
    Resumption.Reaches (Interpreter.bodies config) Request.Open (x s) before
      (.execute stmt scope cx) u →
    Resumption.Traces (Interpreter.bodies config) (Exec.executeBody stmt scope cx u) within
      (.raised e) t →
    Resumption.Traces (Interpreter.bodies config) (x s)
      (before ++ (.execute stmt scope cx, u) :: within) (.raised (fail e))
      { t with callDepth := s.callDepth }

theorem abortsAtStatements_everywhere (config : Config) :
    Exec.Everywhere config fun x fail => x.AbortsAtStatements config fail := by
  refine ((Exec.passes_everywhere config).and (.all (kept_everywhere config))).imp ?_
  intro _ _ x fail h s before stmt scope cx u within e t reached failed
  exact h.1.traces_of_reaches (fun o t run => (h.2 s o t run).1) reached failed rfl
    (position_of_runs_execute (runs_execute_iff.mpr failed.evaluates))

/-! ## The registry -/

/-- A module statement of that name has succeeded. -/
def Occurrence.Registers (name : Name) : Occurrence → Prop
  | .answered (.question (.execute ⟨_, .moduleBlock n _⟩ _ _)) _ (.ok _) _ => n = name
  | _ => False

theorem Occurrence.find?_registers_of_not (other : ¬ e.Registers name) (modules : Registry) :
    (e.registers modules).find? name = modules.find? name := by
  unfold registers
  split
  · exact (Registry.find?_register ..).trans (if_neg fun same => other same.symm)
  · rfl

/-- While no module of that name is registered, the entry stays. -/
theorem Chronicle.find?_registry_of_not {after : Chronicle} {modules : Registry}
    (others : ∀ e ∈ after, ¬ e.Registers name) :
    (after.registry modules).find? name = modules.find? name := by
  induction after generalizing modules with
  | nil => rfl
  | cons e rest ih =>
      obtain ⟨first, later⟩ := List.forall_mem_cons.mp others
      exact (ih later).trans (Occurrence.find?_registers_of_not first modules)

theorem Chronicle.registry_append (first rest : Chronicle) (modules : Registry) :
    registry (first ++ rest) modules = rest.registry (first.registry modules) :=
  List.foldl_append

/-! ## Members -/

/-- The module of that name is the scope, and its members are what the body declares. -/
structure Publishes (name : Name) (body : Block) (d : ScopeId) (s : State) : Prop where
  entry : s.modules.find? name = some d
  /-- The members are the names declared by declarations directly in the body. -/
  members : ∀ m, (∃ v, s.modules.resolve s.scopes name m = .ok v) ↔
    ∃ p names values, ⟨p, .var names values⟩ ∈ body ∧ m ∈ names
  /-- The value of a member is the value that its variable has wherever it is seen. -/
  current : ∀ i m v, s.scopes.definer? i m = some d →
    (s.modules.resolve s.scopes name m = .ok v ↔ s.scopes.get? i m = some v)
  /-- A scope below that of the module sees the variable of a member unless it binds the name
  itself. The frames of functions that the body has made are such scopes. -/
  seen : ∀ i m, s.scopes.parent? i = some d → s.scopes.local? i m = none →
    (∃ v, s.modules.resolve s.scopes name m = .ok v) → s.scopes.definer? i m = some d
  /-- Whoever sets a variable sets the member if the variable is the one of the module, and no
  member otherwise. -/
  written : ∀ i n v scopes, s.scopes.set? i n v = some scopes → ∀ m,
    s.modules.resolve scopes name m =
      if s.scopes.definer? i n = some d ∧ m = n then .ok v
      else s.modules.resolve s.scopes name m

theorem Registry.resolve_ok_iff {modules : Registry} {store : ScopeStore} {m : Name} {v : Value}
    (entry : modules.find? name = some d) :
    modules.resolve store name m = .ok v ↔ store.local? d m = some v := by
  unfold resolve
  rw [entry]
  dsimp only
  cases store.local? d m with
  | none => simp
  | some w => simp

/-- It is enough to know the entry and the names of the scope. -/
theorem publishes_of_names (entry : s.modules.find? name = some d)
    (names : ∀ n, n ∈ s.scopes.names d ↔ n ∈ declaredIn body) : Publishes name body d s where
  entry := entry
  members m := by
    simp only [Registry.resolve_ok_iff entry]
    rw [← Option.isSome_iff_exists, ← ScopeStore.mem_names_iff, names, mem_declaredIn]
  current i m v seen := by
    rw [Registry.resolve_ok_iff entry, ScopeStore.get?_eq, seen, Option.bind_some]
  seen i m parent free member := by
    obtain ⟨v, value⟩ := member
    rw [Registry.resolve_ok_iff entry] at value
    rw [ScopeStore.definer?_eq, free, parent, Option.bind_some, ScopeStore.definer?_eq, value]
    rfl
  written i n v scopes done m := by
    unfold Registry.resolve
    rw [entry]
    dsimp only
    rw [ScopeStore.local?_set? done]
    by_cases here : s.scopes.definer? i n = some d ∧ m = n
    · rw [if_pos here, if_pos here]
    · rw [if_neg here, if_neg here]

/-! ## What a module statement leaves behind -/

/-- A module statement that succeeds has run its body to a normal end. -/
theorem unfolds_module {h : Chronicle} {c : Completion}
    (run : Resumption.Unfolds (watched config)
      (watched config (.question (.execute ⟨p, .moduleBlock name body⟩ scope cx)) s) h (.ok c) t) :
    ∃ c' u inner, c'.isNormal = true ∧ Resumption.Unfolds (watched config)
        (watched config (.question (.block body s.scopes.next .ofModule)) (s.newChild scope).2)
        inner (.ok c') u ∧
      t = { u with modules := u.modules.register name s.scopes.next } ∧ ∀ e ∈ inner, e ∈ h := by
  have ran : Resumption.Unfolds (watched config)
      (watch (Exec.executeBody ⟨p, .moduleBlock name body⟩ scope cx s)) h (.ok c) t := run
  rw [Exec.executeBody_module] at ran
  obtain ⟨b, u, inner, rest, answered, resumed, rfl⟩ := Resumption.unfolds_ask_iff.mp ran
  cases b with
  | raised e | panicked m => cases (Resumption.unfolds_done_iff.mp resumed).2.1
  | ok c' =>
      cases normal : c'.isNormal with
      | true =>
          simp only [normal, if_true] at resumed
          obtain ⟨-, -, rfl⟩ := Resumption.unfolds_done_iff.mp resumed
          exact ⟨c', u, inner, normal, answered, rfl, fun e mem => by simp [mem]⟩
      | false =>
          simp only [normal, Bool.false_eq_true, if_false] at resumed
          cases (Resumption.unfolds_done_iff.mp resumed).2.1

/-- The scope of the module is there, and its names are those that the body declares. -/
theorem names_of_unfolds_module {h : Chronicle} {c : Completion}
    (run : Resumption.Unfolds (watched config)
      (watched config (.question (.execute ⟨p, .moduleBlock name body⟩ scope cx)) s) h (.ok c) t) :
    h.Executes body s.scopes.next .ofModule ∧ s.scopes.next.index < t.scopes.scopes.size ∧
      ∀ n, n ∈ t.scopes.names s.scopes.next ↔ n ∈ declaredIn body := by
  obtain ⟨c', u, inner, normal, answered, rfl, inside⟩ := unfolds_module run
  have there := s.next_lt_newChild scope
  have fresh : (s.newChild scope).2.scopes.names s.scopes.next = [] := by
    show (s.scopes.add _).names _ = []
    rw [ScopeStore.names_eq, ScopeStore.scope?_add, if_pos rfl]
    rfl
  obtain ⟨executes, names⟩ := executes_of_unfolds_block normal answered there fresh
  refine ⟨fun stmt mem => ?_, (kept_of_answer (evaluates_of_answered answered)).scopes.lt there,
    names⟩
  obtain ⟨v, first, w, executed⟩ := executes stmt mem
  exact ⟨v, first, w, inside _ executed⟩

/-- What a host that keeps out of the scope of a module finds under its name. -/
theorem publishes_of_session {acts : List Act} {before after : Chronicle} {c : Completion}
    (shown : Resumption.Shows (watched config) (session config acts start) past e)
    (split : past ++ [e] = before ++
      .answered (.question (.execute ⟨p, .moduleBlock name body⟩ scope cx)) s (.ok c) t :: after)
    (keeps : ∀ act ∈ acts, act.KeepsTo (· ≠ s.scopes.next))
    (others : ∀ e' ∈ after, ¬ e'.Registers name) :
    before.Executes body s.scopes.next .ofModule ∧ Publishes name body s.scopes.next e.state := by
  have ascribed := (ascribed_of_session keeps shown).holds
  have ended : .answered (.question (.execute ⟨p, .moduleBlock name body⟩ scope cx)) s (.ok c) t
      ∈ past ++ [e] := by
    rw [split]
    exact List.mem_append_right _ List.mem_cons_self
  obtain ⟨first, inner, rfl, run⟩ := (shown.earlier split).unfolds
  obtain ⟨executes, there, names⟩ := names_of_unfolds_module run
  refine ⟨fun stmt mem => ?_, publishes_of_names ?_ fun n => ?_⟩
  · obtain ⟨v, c', w, executed⟩ := executes stmt mem
    exact ⟨v, c', w, by simp [executed]⟩
  · rw [ascribed.modules, split, Chronicle.registry_append]
    refine (Chronicle.find?_registry_of_not others).trans ?_
    exact (Registry.find?_register ..).trans (if_pos rfl)
  · rw [ascribed.names _ _ _ _ ended s.scopes.next (Nat.le_refl _) there fun other => other rfl]
    exact names n

/-! ## The main result -/

/-- What it means that modules are registered when they are complete. -/
structure RegistersModules (config : Config) : Prop where
  /-- A module statement runs its body in a new scope, which is registered in the end if the body
  ends normally. Otherwise modules are as the body has left them, and the statement fails. -/
  statement {p : Position} {name : Name} {body : Block} {scope : ScopeId} {cx : Context}
      {s t : State} {o : Outcome EngineError Completion} :
    Runs config (Exec.execute ⟨p, .moduleBlock name body⟩ scope cx) s o t ↔
      ∃ b u, Runs config (Exec.runBlock body s.scopes.next .ofModule) (s.newChild scope).2 b u ∧
        EndsModule p name s.scopes.next b u o t
  /-- Where a statement fails, everything around it fails. -/
  uncatchable : Exec.Everywhere config fun x fail => x.AbortsAtStatements config fail
  /-- Nothing but module statements that succeed registers anything. -/
  only {start : State} {acts : List Act} {past : Chronicle} {e : Occurrence} :
    (∀ act ∈ acts, act.KeepsTo fun _ => True) →
    Resumption.Shows (watched config) (session config acts start) past e →
    e.state.modules = Chronicle.registry (past ++ [e]) start.modules
  /-- After a module statement has succeeded, and as long as no other module of the name is
  registered, its members are the variables that its body has declared. All of the body has been
  executed then. A host is not to bind names in the scope of the module itself. -/
  members {start : State} {acts : List Act} {past before after : Chronicle} {e : Occurrence}
      {p : Position} {name : Name} {body : Block} {scope : ScopeId} {cx : Context} {s t : State}
      {c : Completion} :
    Resumption.Shows (watched config) (session config acts start) past e →
    past ++ [e] = before ++
      .answered (.question (.execute ⟨p, .moduleBlock name body⟩ scope cx)) s (.ok c) t :: after →
    (∀ act ∈ acts, act.KeepsTo (· ≠ s.scopes.next)) →
    (∀ e' ∈ after, ¬ e'.Registers name) →
    before.Executes body s.scopes.next .ofModule ∧ Publishes name body s.scopes.next e.state

/-- **A module is registered when its body has ended normally, and not otherwise.** -/
theorem modules_registered (config : Config) : RegistersModules config where
  statement := runs_module_iff
  uncatchable := abortsAtStatements_everywhere config
  only keeps shown := (ascribed_of_session keeps shown).holds.modules
  members := publishes_of_session

/-- A module in which another one of the same name has been registered takes its place. -/
theorem modules_registered_nested :
    let p : Position := ⟨1, 1⟩
    let inner : Stmt := ⟨p, .moduleBlock "m" [⟨p, .var ["k"] []⟩]⟩
    let body : Block := [⟨p, .var ["n"] [.literal (.int 1)]⟩, inner]
    let stmt : Stmt := ⟨p, .moduleBlock "m" body⟩
    let s := (State.initial .deferred .log).newRoot
    ∃ past t, Resumption.Shows (watched .standard)
        (session .standard [.statement stmt s.1 .function] s.2) past
        (.answered (.question (.execute stmt s.1 .function)) s.2 (.ok .empty) t) ∧
      Publishes "m" body ⟨1⟩ t ∧ t.modules.resolve t.scopes "m" "n" = .ok (.int 1) ∧
      ∀ v, t.modules.resolve t.scopes "m" "k" ≠ .ok v := by
  intro p inner body stmt s
  obtain ⟨t, run, value⟩ : ∃ t, Runs .standard (Exec.executeBody stmt s.1 .function) s.2
      (.ok .empty) t ∧ t.modules.resolve t.scopes "m" "n" = .ok (.int 1) :=
    ⟨_, runs_iff_run.mpr ⟨40, rfl⟩, rfl⟩
  obtain ⟨h, unfolds⟩ := (evaluates_watch_iff.mpr run).unfolds
  have shown : Resumption.Shows (watched .standard)
      (session .standard [.statement stmt s.1 .function] s.2) _
      (.answered (.question (.execute stmt s.1 .function)) s.2 (.ok .empty) t) :=
    .answered unfolds
  have publishes := ((modules_registered .standard).members shown rfl
    (by simp [Act.KeepsTo, s, State.newRoot]; decide) (by simp)).2
  refine ⟨_, t, shown, publishes, value, fun v found => ?_⟩
  -- the body itself declares one name
  obtain ⟨q, names, values, declares, there⟩ := (publishes.members "k").mp ⟨v, found⟩
  simp only [body, inner, List.mem_cons, Stmt.mk.injEq, Form.var.injEq, List.not_mem_nil,
    reduceCtorEq, and_false, or_false] at declares
  obtain ⟨-, rfl, -⟩ := declares
  simp at there

end StatementEngine
