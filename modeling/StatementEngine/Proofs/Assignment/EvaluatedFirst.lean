import StatementEngine.Proofs.Assignment.Unpacking
import StatementEngine.Proofs.Undeclared

/-!
# Evaluated first, written last

**Declarations and assignments write nothing before they are known to be well formed.** Their
right-hand sides are evaluated from left to right, and then the values are counted. If one of the
right-hand sides has no value (`EvaluatesUntil`) or the values do not come out even, that is the end
of the statement: it asks for nothing else, and it leaves the state that the evaluation has come to.
An assignment of a value and of whether it is there counts its targets first, before it evaluates
anything.

Evaluating expressions gives no names to the scopes that are there. So a declaration that names a
variable which it declares reads the variable that could be seen before.

The main result is `evaluated_before_written`.
-/

namespace StatementEngine

variable {config : Config} {p : Position} {scope : ScopeId} {cx : Context} {s t u : State}
  {e : Expr} {es : List Expr} {values : List Value} {evaluated asked : Questions}
  {q : Outcome Raise Value}

/-! ## From left to right -/

/-- The expressions are evaluated one after the other, and each of them has a value. -/
inductive EvaluatesAll (config : Config) (scope : ScopeId) :
    List Expr → State → Questions → List Value → State → Prop
  | nil {s : State} : EvaluatesAll config scope [] s [] [] s
  | cons {e : Expr} {rest : List Expr} {s t u : State} {first later : Questions} {v : Value}
      {vs : List Value} (evaluated : Asks config (Exec.evaluate e scope) s first (.ok v) u)
      (all : EvaluatesAll config scope rest u later vs t) :
      EvaluatesAll config scope (e :: rest) s (first ++ later) (v :: vs) t

/-- The expressions are evaluated one after the other up to the first one without a value. -/
inductive EvaluatesUntil (config : Config) (scope : ScopeId) :
    List Expr → State → Questions → Outcome Raise Value → State → Prop
  | here {e : Expr} {rest : List Expr} {s t : State} {asked : Questions}
      {q : Outcome Raise Value} (evaluated : Asks config (Exec.evaluate e scope) s asked q t)
      (fails : ∀ v, q ≠ .ok v) : EvaluatesUntil config scope (e :: rest) s asked q t
  | later {e : Expr} {rest : List Expr} {s t u : State} {first later : Questions} {v : Value}
      {q : Outcome Raise Value} (evaluated : Asks config (Exec.evaluate e scope) s first (.ok v) u)
      (stops : EvaluatesUntil config scope rest u later q t) :
      EvaluatesUntil config scope (e :: rest) s (first ++ later) q t

theorem EvaluatesUntil.fails (h : EvaluatesUntil config scope es s evaluated q u) :
    ∀ v, q ≠ .ok v := by
  induction h with
  | here _ fails => exact fails
  | later _ _ ih => exact ih

/-- A list of expressions is evaluated to the end, or up to the first one without a value. -/
theorem asks_evaluateAll_iff {r : Outcome Raise (List Value)} :
    Asks config (Exec.evaluateAll scope es) s evaluated r u ↔
      (∃ vs, EvaluatesAll config scope es s evaluated vs u ∧ r = .ok vs) ∨
      ∃ q, EvaluatesUntil config scope es s evaluated q u ∧ r = q.mapValue fun _ => [] := by
  constructor
  · intro run
    induction es generalizing s evaluated r with
    | nil =>
        obtain ⟨rfl, rfl, rfl⟩ := asks_pure_iff.mp run
        exact Or.inl ⟨[], .nil, rfl⟩
    | cons e rest ih =>
        rcases (asks_bind_or_iff fun _ => []).mp run with ⟨v, w, first, more, head, next, rfl⟩ |
          ⟨q, head, fails, rfl⟩
        · rcases (asks_bind_or_iff fun _ => []).mp next with ⟨vs, w', later, last, tail, ended, rfl⟩ |
            ⟨q, tail, fails, rfl⟩
          · obtain ⟨rfl, rfl, rfl⟩ := asks_pure_iff.mp ended
            rw [List.append_nil]
            rcases ih tail with ⟨vs, all, same⟩ | ⟨q, stops, same⟩
            · cases same
              exact Or.inl ⟨_, .cons head all, rfl⟩
            · exact absurd same.symm (Outcome.mapValue_fails stops.fails _)
          · rcases ih tail with ⟨vs, -, rfl⟩ | ⟨q, stops, rfl⟩
            · exact absurd rfl (fails vs)
            · exact Or.inr ⟨q, .later head stops, Outcome.mapValue_mapValue ..⟩
        · exact Or.inr ⟨q, .here head fails, rfl⟩
  · rintro (⟨vs, all, rfl⟩ | ⟨q, stops, rfl⟩)
    · induction all with
      | nil => exact asks_pure_iff.mpr ⟨rfl, rfl, rfl⟩
      | cons head _ ih =>
          refine (asks_bind_of_ok head).mpr ⟨_, (asks_bind_of_ok ih).mpr ⟨[], ?_, rfl⟩, by simp⟩
          exact asks_pure_iff.mpr ⟨rfl, rfl, rfl⟩
    · induction stops with
      | here head fails =>
          exact (asks_bind_or_iff fun _ => []).mpr (Or.inr ⟨_, head, fails, rfl⟩)
      | later head stops ih =>
          refine (asks_bind_of_ok head).mpr ⟨_, (asks_bind_or_iff fun _ => []).mpr (Or.inr ?_), rfl⟩
          exact ⟨_, ih, Outcome.mapValue_fails stops.fails, by rw [Outcome.mapValue_mapValue]⟩

theorem EvaluatesAll.asks (h : EvaluatesAll config scope es s evaluated values u) :
    Asks config (Exec.evaluateAll scope es) s evaluated (.ok values) u :=
  asks_evaluateAll_iff.mpr (Or.inl ⟨values, h, rfl⟩)

theorem EvaluatesUntil.asks (h : EvaluatesUntil config scope es s evaluated q u) :
    Asks config (Exec.evaluateAll scope es) s evaluated (q.mapValue fun _ => []) u :=
  asks_evaluateAll_iff.mpr (Or.inr ⟨q, h, rfl⟩)

/-- Evaluating an expression keeps the names of all scopes. -/
theorem kept_of_asks_evaluate {r : Outcome Raise Value}
    (h : Asks config (Exec.evaluate e scope) s asked r t) :
    s.KeptSince (fun _ _ => False) t :=
  kept_of_answer (q := .evaluate e scope) h.runs

theorem EvaluatesAll.kept (h : EvaluatesAll config scope es s evaluated values u) :
    s.KeptSince (fun _ _ => False) u := by
  induction h with
  | nil => exact .refl _
  | cons evaluated _ ih =>
      exact (kept_of_asks_evaluate evaluated).trans ih fun _ _ _ h => h

theorem EvaluatesUntil.kept (h : EvaluatesUntil config scope es s evaluated q u) :
    s.KeptSince (fun _ _ => False) u := by
  induction h with
  | here evaluated _ => exact kept_of_asks_evaluate evaluated
  | later evaluated _ ih =>
      exact (kept_of_asks_evaluate evaluated).trans ih fun _ _ _ h => h

/-! ## Statements with right-hand sides -/

/-- Changing the value at the end asks nothing. -/
theorem asks_bind_pure_iff {α β ε : Type} {x : Exec ε α} {g : α → β} {o : Outcome ε β} :
    Asks config (x >>= fun a => pure (g a)) s asked o t ↔
      ∃ r, Asks config x s asked r t ∧ o = r.mapValue g := by
  rw [asks_bind_or_iff g]
  constructor
  · rintro (⟨a, u, first, last, run, ended, rfl⟩ | ⟨r, run, -, rfl⟩)
    · obtain ⟨rfl, rfl, rfl⟩ := asks_pure_iff.mp ended
      exact ⟨_, by simpa using run, rfl⟩
    · exact ⟨r, run, rfl⟩
  · rintro ⟨r, run, rfl⟩
    cases r with
    | ok a => exact Or.inl ⟨a, t, asked, [], run, asks_pure_iff.mpr ⟨rfl, rfl, rfl⟩, by simp⟩
    | raised e => exact Or.inr ⟨_, run, by simp, rfl⟩
    | panicked m => exact Or.inr ⟨_, run, by simp, rfl⟩

/-- From the state, the statement asks for itself and for the questions, and it ends as the outcome
says, in the second state. This is its only run. -/
def Stmt.OnlyRun (config : Config) (stmt : Stmt) (scope : ScopeId) (cx : Context) (s : State)
    (asked : Questions) (o : Outcome EngineError Completion) (t : State) : Prop :=
  ∀ asked' o' t', Asks config (Exec.execute stmt scope cx) s asked' o' t' ↔
    asked' = (.execute stmt scope cx, s) :: asked ∧ o' = o ∧ t' = t

theorem asks_statement_iff {form : Form} {o : Outcome EngineError Completion} :
    Asks config (Exec.execute ⟨p, form⟩ scope cx) s asked o t ↔
      ∃ inner r, Asks config (Exec.runForm p form scope cx) s inner r t ∧ o = r.located p ∧
        asked = (.execute ⟨p, form⟩ scope cx, s) :: inner := by
  simp only [asks_execute_iff, Exec.executeBody, asks_located_iff]
  constructor
  · rintro ⟨inner, ⟨r, run, rfl⟩, rfl⟩
    exact ⟨inner, r, run, rfl, rfl⟩
  · rintro ⟨inner, r, run, rfl, rfl⟩
    exact ⟨inner, ⟨r, run, rfl⟩, rfl⟩

/-- A statement runs as its form does, and in no other way. -/
theorem onlyRun_of_form {form : Form} {r : Outcome Raise Completion}
    (h : Asks config (Exec.runForm p form scope cx) s asked r t) :
    Stmt.OnlyRun config ⟨p, form⟩ scope cx s asked (r.located p) t := by
  have run : Asks config (Exec.execute ⟨p, form⟩ scope cx) s
      ((.execute ⟨p, form⟩ scope cx, s) :: asked) (r.located p) t :=
    asks_statement_iff.mpr ⟨asked, r, h, rfl, rfl⟩
  intro asked' o' t'
  constructor
  · intro other
    obtain ⟨rfl, rfl, rfl⟩ := run.unique other
    exact ⟨rfl, rfl, rfl⟩
  · rintro ⟨rfl, rfl, rfl⟩
    exact run

section Paired
variable {α : Type} {pair : List Value → Except ErrorKind α} {rest : α → Exec Raise Completion}

/-- A right-hand side without a value is the end, before the values are paired. -/
theorem asks_paired_of_until (stops : EvaluatesUntil config scope es s evaluated q u) :
    Asks config (do
        let vs ← Exec.evaluateAll scope es
        let paired ← Exec.ofExcept .ofKind (pair vs)
        rest paired) s evaluated (q.mapValue fun _ => .empty) u := by
  refine (asks_bind_or_iff fun _ => Completion.empty).mpr (Or.inr ?_)
  exact ⟨_, stops.asks, Outcome.mapValue_fails stops.fails, by rw [Outcome.mapValue_mapValue]⟩

/-- Values that cannot be paired are the end, and nothing else has happened. -/
theorem asks_paired_of_refused {k : ErrorKind}
    (all : EvaluatesAll config scope es s evaluated values u) (refused : pair values = .error k) :
    Asks config (do
        let vs ← Exec.evaluateAll scope es
        let paired ← Exec.ofExcept .ofKind (pair vs)
        rest paired) s evaluated (.raised (.ofKind k)) u := by
  refine (asks_bind_of_ok all.asks).mpr ⟨[], ?_, by simp⟩
  rw [refused]
  exact asks_bind_iff.mpr (Or.inr (Or.inl ⟨_, (asks_of_done rfl).mpr ⟨rfl, rfl, rfl⟩, rfl⟩))

/-- Values that have been paired are written in the state that evaluating them has left. -/
theorem asks_paired_of_taken {a : α} {o : Outcome Raise Completion}
    (all : EvaluatesAll config scope es s evaluated values u) (taken : pair values = .ok a) :
    Asks config (do
        let vs ← Exec.evaluateAll scope es
        let paired ← Exec.ofExcept .ofKind (pair vs)
        rest paired) s asked o t ↔
      ∃ written, Asks config (rest a) u written o t ∧ asked = evaluated ++ written := by
  rw [asks_bind_of_ok all.asks, taken]
  rfl

end Paired

/-! ## Reading what is being declared -/

/-- A declaration asks for its right-hand sides and for nothing else. -/
theorem evaluateAll_of_asks_var {names : List Name} {o : Outcome Raise Completion}
    (run : Asks config (Exec.runVar names es scope) s asked o t) :
    ∃ r u, Asks config (Exec.evaluateAll scope es) s asked r u := by
  rcases (asks_bind_or_iff fun _ => Completion.empty).mp run with
    ⟨vs, u, first, rest, all, binds, rfl⟩ | ⟨r, stops, -⟩
  · have quiet : rest = [] := by
      cases taken : declared names vs with
      | ok bindings =>
          rw [taken] at binds
          exact ((asks_of_done rfl).mp binds).1
      | error k =>
          rw [taken] at binds
          exact ((asks_of_done rfl).mp binds).1
    subst quiet
    exact ⟨_, u, by simpa using all⟩
  · exact ⟨r, t, stops⟩

/-- During a declaration, every name means the variable that it meant before. -/
theorem definer?_of_asked_var {names : List Name} {o : Outcome EngineError Completion}
    (run : Asks config (Exec.execute ⟨p, .var names es⟩ scope cx) s asked o t) {i : ScopeId}
    (there : i.index < s.scopes.scopes.size) (name : Name) :
    ∀ q ∈ asked, q.2.scopes.definer? i name = s.scopes.definer? i name := by
  obtain ⟨inner, r, form, -, rfl⟩ := asks_statement_iff.mp run
  obtain ⟨_, _, all⟩ := evaluateAll_of_asks_var form
  refine List.forall_mem_cons.mpr ⟨rfl, ?_⟩
  exact definer?_of_asked (undeclared_evaluateAll scope es) all there name

/-- A variable has the value that the nearest scope binds it to. -/
theorem runs_variable_iff {n : Name} {v : Value} :
    Runs config (Exec.evaluate (.variable n) scope) s (.ok v) t ↔
      t = s ∧ ∃ d, s.scopes.definer? scope n = some d ∧ s.scopes.local? d n = some v := by
  rw [runs_evaluate_iff, Exec.evaluateBody, runs_mapError_ok_iff, runs_readVariable_ok_iff,
    ScopeStore.get?_eq, Option.bind_eq_some_iff, and_comm]

/-! ## The statements -/

/-- What declarations and assignments at a position do in a scope. -/
structure WritesLast (config : Config) (p : Position) (scope : ScopeId) (cx : Context)
    (s : State) : Prop where
  /-- A declaration ends with the first right-hand side that has no value. -/
  var_fails : ∀ names es evaluated q u, EvaluatesUntil config scope es s evaluated q u →
    Stmt.OnlyRun config ⟨p, .var names es⟩ scope cx s evaluated
      ((q.mapValue fun _ => .empty).located p) u
  /-- A declaration whose values do not come out even ends when they have been evaluated. -/
  var_refused : ∀ names es evaluated values u k,
    EvaluatesAll config scope es s evaluated values u → declared names values = .error k →
    Stmt.OnlyRun config ⟨p, .var names es⟩ scope cx s evaluated (.raised ⟨k, some p⟩) u
  /-- Otherwise its names are defined after all of its right-hand sides have been evaluated. -/
  var_taken : ∀ names es evaluated values u bindings,
    EvaluatesAll config scope es s evaluated values u → declared names values = .ok bindings →
    Stmt.OnlyRun config ⟨p, .var names es⟩ scope cx s evaluated (.ok .empty)
      { u with scopes := u.scopes.defineAll scope bindings }
  /-- A variable that a right-hand side names, at any depth, is the one that could be seen before the
  declaration. -/
  var_reads : scope.index < s.scopes.scopes.size → ∀ names es asked o t,
    Asks config (Exec.execute ⟨p, .var names es⟩ scope cx) s asked o t →
    ∀ n u, (.evaluate (.variable n) scope, u) ∈ asked →
    ∀ v w, Runs config (Exec.evaluate (.variable n) scope) u (.ok v) w ↔
      w = u ∧ ∃ d, s.scopes.definer? scope n = some d ∧ u.scopes.local? d n = some v
  /-- An assignment ends with the first right-hand side that has no value. -/
  assign_fails : ∀ targets op es evaluated q u, EvaluatesUntil config scope es s evaluated q u →
    Stmt.OnlyRun config ⟨p, .assign targets op es⟩ scope cx s evaluated
      ((q.mapValue fun _ => .empty).located p) u
  /-- An assignment whose values do not come out even ends when they have been evaluated. -/
  assign_refused : ∀ targets op es evaluated values u k,
    EvaluatesAll config scope es s evaluated values u →
    assigned targets.length values = .error k →
    Stmt.OnlyRun config ⟨p, .assign targets op es⟩ scope cx s evaluated (.raised ⟨k, some p⟩) u
  /-- Otherwise its targets are written after all of its right-hand sides have been evaluated. -/
  assign_taken : ∀ targets op es evaluated values u vs,
    EvaluatesAll config scope es s evaluated values u → assigned targets.length values = .ok vs →
    ∀ asked o t, Asks config (Exec.execute ⟨p, .assign targets op es⟩ scope cx) s asked o t ↔
      ∃ written r, Asks config (Exec.assignEach p op scope (targets.zip vs) .nil) u written r t ∧
        o = (r.mapValue .ofValue).located p ∧
        asked = (.execute ⟨p, .assign targets op es⟩ scope cx, s) :: (evaluated ++ written)
  /-- An assignment of a value and of whether it is there to more than two targets evaluates
  nothing. -/
  found_refused : ∀ targets e, 2 < targets.length →
    Stmt.OnlyRun config ⟨p, .assignFound targets e⟩ scope cx s []
      (.raised ⟨.cardinalityMismatch targets.length 2, some p⟩) s
  /-- With fewer targets it ends with its right-hand side if that has no value. -/
  found_fails : ∀ targets e evaluated q u, targets.length ≤ 2 →
    Asks config (Exec.evaluate e scope) s evaluated q u → (∀ v, q ≠ .ok v) →
    Stmt.OnlyRun config ⟨p, .assignFound targets e⟩ scope cx s evaluated
      ((q.mapValue fun _ => .empty).located p) u
  /-- Otherwise its targets are written after it. -/
  found_taken : ∀ targets e evaluated v u, targets.length ≤ 2 →
    Asks config (Exec.evaluate e scope) s evaluated (.ok v) u →
    ∀ asked o t, Asks config (Exec.execute ⟨p, .assignFound targets e⟩ scope cx) s asked o t ↔
      ∃ written r, Asks config
          (Exec.assignEach p .assign scope (targets.zip [v, .bool !v.isNil]) .nil) u written r t ∧
        o = (r.mapValue fun _ => .ofValue v).located p ∧
        asked = (.execute ⟨p, .assignFound targets e⟩ scope cx, s) :: (evaluated ++ written)
  /-- Evaluating right-hand sides gives no names to the scopes that are there. -/
  unnamed : ∀ es evaluated u, (∃ values, EvaluatesAll config scope es s evaluated values u) ∨
    (∃ q, EvaluatesUntil config scope es s evaluated q u) → s.KeptSince (fun _ _ => False) u

/-- **Declarations and assignments write nothing before they are known to be well formed.** In every
scope and state, a statement whose right-hand sides are not all evaluated or do not come out even
leaves exactly the state that their evaluation from left to right has come to. It has asked for them
and for nothing else, and no scope that was there has been given a name. With more than two targets,
an assignment of a value and of whether it is there leaves the state that it started in.

Otherwise the names are defined and the targets written after the last right-hand side. Until then a
name means what it meant before the statement. -/
theorem evaluated_before_written (config : Config) (p : Position) (scope : ScopeId) (cx : Context)
    (s : State) : WritesLast config p scope cx s where
  var_fails _ _ _ _ _ stops := onlyRun_of_form (asks_paired_of_until stops)
  var_refused names es evaluated values u k all refused :=
    onlyRun_of_form (r := .raised (.ofKind k)) (asks_paired_of_refused all refused)
  var_taken names es evaluated values u bindings all taken := by
    refine onlyRun_of_form (r := .ok .empty) ((asks_paired_of_taken all taken).mpr ?_)
    exact ⟨[], (asks_of_done rfl).mpr ⟨rfl, rfl, rfl⟩, (List.append_nil _).symm⟩
  var_reads there names es asked o t run n u naming v w := by
    rw [runs_variable_iff, definer?_of_asked_var run there n _ naming]
  assign_fails _ _ _ _ _ _ stops := onlyRun_of_form (asks_paired_of_until stops)
  assign_refused targets op es evaluated values u k all refused :=
    onlyRun_of_form (r := .raised (.ofKind k)) (asks_paired_of_refused all refused)
  assign_taken targets op es evaluated values u vs all taken asked o t := by
    rw [asks_statement_iff]
    simp only [Exec.runForm, Exec.runAssign, asks_paired_of_taken all taken, asks_bind_pure_iff]
    constructor
    · rintro ⟨_, _, ⟨written, ⟨r, run, rfl⟩, rfl⟩, rfl, rfl⟩
      exact ⟨written, r, run, rfl, rfl⟩
    · rintro ⟨written, r, run, rfl, rfl⟩
      exact ⟨_, _, ⟨written, ⟨r, run, rfl⟩, rfl⟩, rfl, rfl⟩
  found_refused targets e many := by
    refine onlyRun_of_form (r := .raised (.ofKind _)) ?_
    rw [Exec.runForm, Exec.runAssignFound, if_pos many]
    exact (asks_of_done rfl).mpr ⟨rfl, rfl, rfl⟩
  found_fails targets e evaluated q u few run fails := by
    refine onlyRun_of_form ?_
    rw [Exec.runForm, Exec.runAssignFound, if_neg (Nat.not_lt_of_le few)]
    exact (asks_bind_or_iff fun _ => Completion.empty).mpr (Or.inr ⟨q, run, fails, rfl⟩)
  found_taken targets e evaluated v u few run asked o t := by
    rw [asks_statement_iff]
    simp only [Exec.runForm, Exec.runAssignFound, if_neg (Nat.not_lt_of_le few),
      asks_bind_of_ok run, asks_bind_pure_iff]
    constructor
    · rintro ⟨_, _, ⟨written, ⟨r, run, rfl⟩, rfl⟩, rfl, rfl⟩
      exact ⟨written, r, run, rfl, rfl⟩
    · rintro ⟨written, r, run, rfl, rfl⟩
      exact ⟨_, _, ⟨written, ⟨r, run, rfl⟩, rfl⟩, rfl, rfl⟩
  unnamed es evaluated u run := by
    rcases run with ⟨values, all⟩ | ⟨q, stops⟩
    · exact all.kept
    · exact stops.kept

/-! ## A right-hand side that changes a variable -/

/-- Two variables. -/
def twoVariables : State :=
  { State.initial .deferred .log with
    scopes := ((ScopeStore.empty.add none).define ⟨0⟩ "a" (.int 1)).define ⟨0⟩ "b" (.int 2) }

/-- The first right-hand side sets the variable `a`, the second one fails. The statement fails with
it, and neither of its targets has been written. -/
theorem evaluated_before_written_fails :
    let set : Expr := .set "a" (.literal (.int 7))
    let targets : List Target := [.variable ⟨1, 1⟩ "b", .variable ⟨1, 4⟩ "a"]
    ∃ evaluated t, EvaluatesUntil .standard ⟨0⟩ [set, .fail "no value"] twoVariables evaluated
        (.raised (.ofKind (.invalidOperation "no value"))) t ∧
      Stmt.OnlyRun .standard ⟨⟨1, 1⟩, .assign targets .assign [set, .fail "no value"]⟩ ⟨0⟩ .function
        twoVariables evaluated (.raised ⟨.invalidOperation "no value", some ⟨1, 1⟩⟩) t ∧
      t.scopes.get? ⟨0⟩ "a" = some (.int 7) ∧ t.scopes.get? ⟨0⟩ "b" = some (.int 2) := by
  intro set targets
  obtain ⟨u, changed, first⟩ : ∃ u, Runs .standard (Exec.evaluate set ⟨0⟩) twoVariables
      (.ok (.int 7)) u ∧ u.scopes.get? ⟨0⟩ "a" = some (.int 7) ∧
        u.scopes.get? ⟨0⟩ "b" = some (.int 2) :=
    ⟨_, runs_iff_run.mpr ⟨10, rfl⟩, rfl, rfl⟩
  obtain ⟨asked, changed⟩ := changed.asks
  obtain ⟨asked', failed⟩ : ∃ asked', Asks .standard (Exec.evaluate (.fail "no value") ⟨0⟩) u asked'
      (.raised (.ofKind (.invalidOperation "no value"))) u :=
    (runs_evaluate_iff.mpr (runs_raise_iff.mpr ⟨rfl, rfl⟩) : Runs .standard _ u _ u).asks
  have stops : EvaluatesUntil .standard ⟨0⟩ [set, .fail "no value"] twoVariables (asked ++ asked')
      (.raised (.ofKind (.invalidOperation "no value"))) u :=
    .later changed (.here failed (by simp))
  exact ⟨_, u, stops,
    (evaluated_before_written .standard ⟨1, 1⟩ ⟨0⟩ .function twoVariables).assign_fails targets
      .assign _ _ _ _ stops, first⟩

end StatementEngine
