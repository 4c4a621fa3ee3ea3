import StatementEngine.Proofs.Assignment.EvaluatedFirst
import StatementEngine.Proofs.Cancellation
import StatementEngine.Proofs.Rows
import StatementEngine.Proofs.Scope.Frames

/-!
# Loops over a value

**A loop over a value is a walk over rows that are fixed before it begins.** The body is entered once
for each row, in order, up to the first row for which it does not end normally or with a `continue`
(`Walks`). Each time it runs in a scope that is new and binds the loop variables and nothing else
(`State.iterating`). What it does to the value that the rows come from, or to the variable that holds
it, changes nothing about them.

A task that has been asked to stop is stopped before the next row.

The main result is `range_loop_folds`.
-/

namespace StatementEngine

/-! ## Rounds -/

/-- How the loop ends after its body has ended like this, if it does not go on. -/
def Outcome.leavesLoop? : Outcome EngineError Completion → Option (Outcome Raise Completion)
  | .ok c =>
    match c.signal.afterIteration with
    | .again => none
    | .leave => some (.ok .empty)
    | .handOn signal => some (.ok (.ofSignal signal))
  | .raised e => some (.raised (.failed e))
  | .panicked m => some (.panicked m)

/-- The scope and the state in which the body of a loop runs for a row: the scope is new and binds the
loop variables. -/
def State.iterating (s : State) (scope : ScopeId) (vars : List Name) (row : List Value) :
    ScopeId × State :=
  (s.scopes.next, { s with scopes := s.scopes.framed scope (vars.zip row) })

/-- What happens for one row: the state before it, what the body asks, how the body ends, and the
state after it. -/
structure Iteration where
  row : List Value
  start : State
  asked : Questions
  outcome : Outcome EngineError Completion
  finish : State

/-- A walk over rows runs the body for one after the other. It ends when the rows are used up, when
the body leaves the loop, or before a row if the task is to stop. -/
inductive Walks (config : Config) (vars : List Name) (body : Block) (scope : ScopeId)
    (cx : Context) : List (List Value) → State → List Iteration → Questions →
      Outcome Raise Completion → State → Prop
  | done {s : State} : Walks config vars body scope cx [] s [] [] (.ok .empty) s
  | stopped {row : List Value} {rest : List (List Value)} {s : State}
      (stop : s.stopRequested = true) :
      Walks config vars body scope cx (row :: rest) s [] [] (.raised (.ofKind .cancelled)) s
  | leaves {row : List Value} {rest : List (List Value)} {s t : State} {asked : Questions}
      {q : Outcome EngineError Completion} {o : Outcome Raise Completion}
      (awake : s.stopRequested = false)
      (run : Asks config (Exec.runBlock body (s.iterating scope vars row).1 cx)
        (s.iterating scope vars row).2 asked q t)
      (leaves : q.leavesLoop? = some o) :
      Walks config vars body scope cx (row :: rest) s [⟨row, s, asked, q, t⟩] asked o t
  | again {row : List Value} {rest : List (List Value)} {s t u : State} {first later : Questions}
      {q : Outcome EngineError Completion} {rounds : List Iteration} {o : Outcome Raise Completion}
      (awake : s.stopRequested = false)
      (run : Asks config (Exec.runBlock body (s.iterating scope vars row).1 cx)
        (s.iterating scope vars row).2 first q u)
      (goesOn : q.leavesLoop? = none)
      (walks : Walks config vars body scope cx rest u rounds later o t) :
      Walks config vars body scope cx (row :: rest) s (⟨row, s, first, q, u⟩ :: rounds)
        (first ++ later) o t

variable {config : Config} {vars : List Name} {body : Block} {scope : ScopeId} {cx : Context}
  {s t u : State} {rs rest : List (List Value)} {row : List Value} {asked : Questions}
  {rounds : List Iteration} {o : Outcome Raise Completion}

/-- What a loop does after its body has run for a row. -/
def Exec.afterRow (vars : List Name) (body : Block) (scope : ScopeId) (cx : Context)
    (rest : List (List Value)) (c : Completion) : Exec Raise Completion :=
  match c.signal.afterIteration with
  | .again => runRows vars body scope cx rest
  | .leave => pure .empty
  | .handOn signal => pure (.ofSignal signal)

theorem Exec.runRows_cons (awake : s.stopRequested = false) :
    runRows vars body scope cx (row :: rest) s =
      (failing (runBlock body (s.iterating scope vars row).1 cx) >>=
        afterRow vars body scope cx rest) (s.iterating scope vars row).2 := by
  rw [runRows, failing, checkStop_bind_of_awake awake]
  rfl

theorem asks_afterRow_iff {c : Completion} :
    Asks config (Exec.afterRow vars body scope cx rest c) u asked o t ↔
      ((Outcome.ok c).leavesLoop? = some o ∧ asked = [] ∧ t = u) ∨
      ((Outcome.ok c).leavesLoop? = none ∧
        Asks config (Exec.runRows vars body scope cx rest) u asked o t) := by
  simp only [Exec.afterRow, Outcome.leavesLoop?]
  cases c.signal.afterIteration with
  | again => simp
  | leave | handOn signal => simp [eq_comm, and_left_comm]

/-- The body runs for the first row. Then the loop is left, or it goes on with the other rows. -/
theorem asks_runRows_cons_iff (awake : s.stopRequested = false) :
    Asks config (Exec.runRows vars body scope cx (row :: rest)) s asked o t ↔
      ∃ first q u, Asks config (Exec.runBlock body (s.iterating scope vars row).1 cx)
          (s.iterating scope vars row).2 first q u ∧
        ((q.leavesLoop? = some o ∧ asked = first ∧ t = u) ∨
          (q.leavesLoop? = none ∧ ∃ later, Asks config (Exec.runRows vars body scope cx rest) u
            later o t ∧ asked = first ++ later)) := by
  have head : Asks config (Exec.runRows vars body scope cx (row :: rest)) s asked o t ↔
      Asks config (Exec.failing (Exec.runBlock body (s.iterating scope vars row).1 cx) >>=
        Exec.afterRow vars body scope cx rest) (s.iterating scope vars row).2 asked o t := by
    rw [Asks, Exec.runRows_cons awake]
    rfl
  rw [head, asks_bind_or_iff fun _ => Completion.empty]
  simp only [Exec.failing, asks_mapError_iff, asks_afterRow_iff]
  constructor
  · rintro (⟨c, u, first, later, ⟨q, run, same⟩, after, rfl⟩ | ⟨_, ⟨q, run, rfl⟩, fails, rfl⟩)
    · obtain rfl := Outcome.ok_eq_mapError_iff.mp same
      refine ⟨first, _, u, run, ?_⟩
      rcases after with ⟨leaves, rfl, rfl⟩ | ⟨goesOn, after⟩
      · exact Or.inl ⟨leaves, List.append_nil _, rfl⟩
      · exact Or.inr ⟨goesOn, later, after, rfl⟩
    · refine ⟨asked, q, t, run, Or.inl ⟨?_, rfl, rfl⟩⟩
      cases q with
      | ok c => exact absurd rfl (fails c)
      | raised e | panicked m => rfl
  · rintro ⟨first, q, u, run, next⟩
    cases q with
    | ok c =>
        refine Or.inl ⟨c, u, first, ?_⟩
        rcases next with ⟨leaves, rfl, rfl⟩ | ⟨goesOn, later, after, rfl⟩
        · exact ⟨[], ⟨_, run, rfl⟩, Or.inl ⟨leaves, rfl, rfl⟩, (List.append_nil _).symm⟩
        · exact ⟨later, ⟨_, run, rfl⟩, Or.inr ⟨goesOn, after⟩, rfl⟩
    | raised e | panicked m =>
        obtain ⟨⟨⟩, rfl, rfl⟩ | ⟨⟨⟩, -⟩ := next
        exact Or.inr ⟨_, ⟨_, run, rfl⟩, by simp [Outcome.mapError], rfl⟩

/-- The runs of the loop over its rows are the walks over them. -/
theorem asks_runRows_iff :
    Asks config (Exec.runRows vars body scope cx rs) s asked o t ↔
      ∃ rounds, Walks config vars body scope cx rs s rounds asked o t := by
  constructor
  · intro run
    induction rs generalizing s asked with
    | nil =>
        obtain ⟨rfl, rfl, rfl⟩ := asks_pure_iff.mp run
        exact ⟨[], .done⟩
    | cons row rest ih =>
        cases awake : s.stopRequested with
        | true =>
            obtain ⟨rfl, rfl, rfl⟩ := (asks_of_done
              (Exec.runRows_of_stop awake vars body scope cx row rest)).mp run
            exact ⟨[], .stopped awake⟩
        | false =>
            obtain ⟨first, q, u, block, ⟨leaves, rfl, rfl⟩ | ⟨goesOn, later, others, rfl⟩⟩ :=
              (asks_runRows_cons_iff awake).mp run
            · exact ⟨_, .leaves awake block leaves⟩
            · obtain ⟨rounds, walks⟩ := ih others
              exact ⟨_, .again awake block goesOn walks⟩
  · rintro ⟨rounds, walks⟩
    induction walks with
    | done => exact asks_pure_iff.mpr ⟨rfl, rfl, rfl⟩
    | stopped stop =>
        exact (asks_of_done (Exec.runRows_of_stop stop ..)).mpr ⟨rfl, rfl, rfl⟩
    | leaves awake run leaves =>
        exact (asks_runRows_cons_iff awake).mpr ⟨_, _, _, run, Or.inl ⟨leaves, rfl, rfl⟩⟩
    | again awake run goesOn _ ih =>
        exact (asks_runRows_cons_iff awake).mpr ⟨_, _, _, run, Or.inr ⟨goesOn, _, ih, rfl⟩⟩

/-! ## What a walk comes to -/

/-- The scope is new and stands below another one, it holds the loop variables with the values of a
row and nothing else, and nothing else has changed. -/
structure HoldsRow (scope : ScopeId) (vars : List Name) (row : List Value) (s : State)
    (child : ScopeId) (t : State) : Prop where
  fresh : s.scopes.scope? child = none
  parent : t.scopes.parent? child = some scope
  names : ∀ x, x ∈ t.scopes.names child ↔ x ∈ vars
  /-- A variable has the value at its place, or at its last place if it has several. -/
  values : ∀ (i : Nat) x, vars[i]? = some x → (∀ j, i < j → vars[j]? ≠ some x) →
    t.scopes.local? child x = row[i]?
  others : ∀ i, i ≠ child → t.scopes.scope? i = s.scopes.scope? i
  rest : t = { s with scopes := t.scopes }

theorem holdsRow_iterating (there : scope.index < s.scopes.scopes.size)
    (long : vars.length ≤ row.length) :
    HoldsRow scope vars row s (s.iterating scope vars row).1 (s.iterating scope vars row).2 where
  fresh := s.scopes.scope?_next
  parent := ScopeStore.parent?_framed there
  names x := by
    refine ScopeStore.mem_names_framed_iff.trans ?_
    rw [List.map_fst_zip long]
  values i x here last :=
    (ScopeStore.local?_framed x).trans (boundValue?_reverse_zip long here last)
  others i other := ScopeStore.scope?_framed_of_ne other
  rest := rfl

/-- The loop is a fold over rows that is left early. -/
structure Folds (config : Config) (vars : List Name) (body : Block) (scope : ScopeId) (cx : Context)
    (rs : List (List Value)) (s : State) (rounds : List Iteration) (asked : Questions)
    (o : Outcome Raise Completion) (t : State) : Prop where
  /-- The body has been entered for the first rows, in order. -/
  rows : rounds.map (·.row) <+: rs
  /-- Each time it has run in a new scope that holds the row. -/
  runs : ∀ r ∈ rounds, ∃ child u, HoldsRow scope vars r.row r.start child u ∧
    Asks config (Exec.runBlock body child cx) u r.asked r.outcome r.finish
  /-- Each round starts in the state that the one before it has left, and the last one leaves the
  state of the loop. -/
  starts : rounds.map (·.start) = (s :: rounds.map (·.finish)).take rounds.length
  finish : t = (rounds.map (·.finish)).getLastD s
  /-- The loop asks what the body asks. -/
  asked : asked = rounds.flatMap (·.asked)
  /-- Only the last round may leave the loop. -/
  goesOn : ∀ r ∈ rounds.dropLast, r.outcome.leavesLoop? = none
  /-- Either the body has been entered for all rows and none has left the loop, or the last round has
  left it, or the task has been asked to stop. -/
  ends : (rounds.map (·.row) = rs ∧ (∀ r ∈ rounds, r.outcome.leavesLoop? = none) ∧ o = .ok .empty) ∨
    (∃ r, rounds.getLast? = some r ∧ r.outcome.leavesLoop? = some o) ∨
    (t.stopRequested = true ∧ o = .raised (.ofKind .cancelled))

/-- A walk over rows that are long enough is such a fold. -/
theorem Walks.folds (walks : Walks config vars body scope cx rs s rounds asked o t)
    (there : scope.index < s.scopes.scopes.size) (long : ∀ row ∈ rs, vars.length ≤ row.length) :
    Folds config vars body scope cx rs s rounds asked o t := by
  induction walks with
  | done =>
      exact ⟨List.prefix_refl _, by simp, rfl, rfl, rfl, by simp, Or.inl ⟨rfl, by simp, rfl⟩⟩
  | stopped stop =>
      exact ⟨List.nil_prefix, by simp, rfl, rfl, rfl, by simp, Or.inr (Or.inr ⟨stop, rfl⟩)⟩
  | leaves awake run leaves =>
      refine ⟨⟨_, rfl⟩, ?_, rfl, rfl, by simp, by simp, Or.inr (Or.inl ⟨_, rfl, leaves⟩)⟩
      refine List.forall_mem_singleton.mpr ⟨_, _, ?_, run⟩
      exact holdsRow_iterating there (long _ List.mem_cons_self)
  | @again row rest s t u first later q rounds o awake run goesOn walks ih =>
      have entered : scope.index < (s.iterating scope vars row).2.scopes.scopes.size := by
        rw [State.iterating, ScopeStore.size_framed]
        exact Nat.lt_succ_of_lt there
      have there' := (kept_of_answer run.runs).scopes.lt entered
      have folds := ih there' fun row hrow => long row (List.mem_cons_of_mem _ hrow)
      refine ⟨?_, List.forall_mem_cons.mpr ⟨⟨_, _, ?_, run⟩, folds.runs⟩, ?_, ?_, ?_, ?_, ?_⟩
      · exact (List.prefix_cons_inj _).mpr folds.rows
      · exact holdsRow_iterating there (long _ List.mem_cons_self)
      · simp [folds.starts]
      · rw [List.map_cons, List.getLastD_cons]
        exact folds.finish
      · simp [folds.asked]
      · intro r hr
        rcases rounds with _ | ⟨r', rounds⟩
        · exact absurd hr List.not_mem_nil
        · rcases List.mem_cons.mp hr with rfl | hr
          · exact goesOn
          · exact folds.goesOn r hr
      · rcases folds.ends with ⟨all, each, rfl⟩ | ⟨r, last, leaves⟩ | stop
        · refine Or.inl ⟨by rw [List.map_cons, all], ?_, rfl⟩
          exact List.forall_mem_cons.mpr ⟨goesOn, each⟩
        · exact Or.inr (Or.inl ⟨r, by simp [List.getLast?_cons, last], leaves⟩)
        · exact Or.inr (Or.inr stop)

/-- If the body comes to an end each time that it is entered, so does the loop. -/
theorem exists_walks
    (ends : ∀ before row after rounds asked w, rs = before ++ row :: after →
      Walks config vars body scope cx before s rounds asked (.ok .empty) w →
      (∀ r ∈ rounds, r.outcome.leavesLoop? = none) → w.stopRequested = false →
      ∃ q w', Runs config (Exec.runBlock body (w.iterating scope vars row).1 cx)
        (w.iterating scope vars row).2 q w') :
    ∃ rounds asked o t, Walks config vars body scope cx rs s rounds asked o t := by
  induction rs generalizing s with
  | nil => exact ⟨[], [], _, s, .done⟩
  | cons row rest ih =>
      cases awake : s.stopRequested with
      | true => exact ⟨[], [], _, s, .stopped awake⟩
      | false =>
          obtain ⟨q, u, block⟩ := ends [] row rest [] [] s rfl .done (by simp) awake
          obtain ⟨first, block⟩ := block.asks
          cases leaves : q.leavesLoop? with
          | some o => exact ⟨_, _, o, u, .leaves awake block leaves⟩
          | none =>
              -- the rows before a later one are this row and the ones before it among the others
              obtain ⟨rounds, later, o, t, walks⟩ := @ih u
                fun before row' after rounds asked w same walks goesOn =>
                  ends (row :: before) row' after (⟨row, s, first, q, u⟩ :: rounds) (first ++ asked)
                    w (by rw [same]; rfl) (.again awake block leaves walks)
                    (List.forall_mem_cons.mpr ⟨leaves, goesOn⟩)
              exact ⟨_, _, o, t, .again awake block leaves walks⟩

/-- Only a normal end and a `continue` go on with the loop. -/
theorem Outcome.leavesLoop?_eq_none_iff {q : Outcome EngineError Completion} :
    q.leavesLoop? = none ↔ ∃ v, q = .ok ⟨v, .none⟩ ∨ q = .ok ⟨v, .continueLoop⟩ := by
  match q with
  | .ok ⟨v, .none⟩ | .ok ⟨v, .continueLoop⟩ => simp [leavesLoop?, Signal.afterIteration]
  | .ok ⟨v, .breakLoop⟩ | .ok ⟨v, .returned _⟩ | .ok ⟨v, .thrown ..⟩ =>
      simp [leavesLoop?, Signal.afterIteration]
  | .raised e | .panicked m => simp [leavesLoop?]

/-- How the loop is left: a `break` is its normal end, a return and a throw are handed on, and
failures are its own. -/
theorem Outcome.leavesLoop?_eq_some_iff {q : Outcome EngineError Completion} :
    q.leavesLoop? = some o ↔
      (∃ v, q = .ok ⟨v, .breakLoop⟩ ∧ o = .ok .empty) ∨
      (∃ v vs, q = .ok ⟨v, .returned vs⟩ ∧ o = .ok (.ofSignal (.returned vs))) ∨
      (∃ v w p, q = .ok ⟨v, .thrown w p⟩ ∧ o = .ok (.ofSignal (.thrown w p))) ∨
      (∃ e, q = .raised e ∧ o = .raised (.failed e)) ∨
      ∃ m, q = .panicked m ∧ o = .panicked m := by
  match q with
  | .ok ⟨v, .none⟩ | .ok ⟨v, .continueLoop⟩ => simp [leavesLoop?, Signal.afterIteration]
  | .ok ⟨v, .breakLoop⟩ | .ok ⟨v, .returned _⟩ | .ok ⟨v, .thrown ..⟩ =>
      simp [leavesLoop?, Signal.afterIteration, eq_comm]
  | .raised e | .panicked m => simp [leavesLoop?, eq_comm]

/-! ## The statement -/

/-- What a loop over a value does at a position in a scope. -/
structure LoopsOver (config : Config) (p : Position) (vars : List Name) (iterable : Expr)
    (body : Block) (scope : ScopeId) (cx : Context) (s : State) : Prop where
  /-- A value is split into rows or refused. -/
  splits : ∀ v, (∃ rs, SplitsInto vars.length v rs) ∨ ∃ k, Refuses vars.length v k
  /-- The rows of a map are in rising order of its keys. -/
  rising : ∀ entries rs, SplitsInto vars.length (.map entries) rs →
    rs.map List.head? = entries.keys.map (fun k => some (.str k)) ∧ entries.keys.Pairwise (· < ·)
  /-- The rows of a string are its characters, which make it up. -/
  characters : ∀ text rs, SplitsInto vars.length (.str text) rs → ∃ pieces : List String,
    rs = pieces.map (fun piece => [.str piece]) ∧ (∀ piece ∈ pieces, piece.length = 1) ∧
      String.join pieces = text
  /-- A row for several variables has the parts of an element, or `nil` where there is none. -/
  padded : ∀ items rs, SplitsInto vars.length (.list items) rs → 1 < vars.length →
    rs.length = items.length ∧ ∀ (i : Nat) row, rs[i]? = some row → row.length = vars.length ∧
      ∃ parts, items[i]? = some (.list parts) ∧
        ∀ j < vars.length, row[j]? = some (parts[j]?.getD .nil)
  /-- If the value is refused then the loop fails, and nothing else happens. -/
  refused : ∀ evaluated v u k, Asks config (Exec.evaluate iterable scope) s evaluated (.ok v) u →
    Refuses vars.length v k →
    Stmt.OnlyRun config ⟨p, .forIn vars iterable body⟩ scope cx s evaluated
      (.raised ⟨k, some p⟩) u
  /-- Otherwise the runs of the loop are the walks over the rows of the value. -/
  walks : ∀ evaluated v u rs, Asks config (Exec.evaluate iterable scope) s evaluated (.ok v) u →
    SplitsInto vars.length v rs → ∀ asked o t,
    Asks config (Exec.execute ⟨p, .forIn vars iterable body⟩ scope cx) s asked o t ↔
      ∃ rounds inner r, Walks config vars body scope cx.enterLoop rs u rounds inner r t ∧
        o = r.located p ∧
        asked = (.execute ⟨p, .forIn vars iterable body⟩ scope cx, s) :: (evaluated ++ inner)
  /-- They are folds over the rows. -/
  folds : ∀ evaluated v u rs, Asks config (Exec.evaluate iterable scope) s evaluated (.ok v) u →
    SplitsInto vars.length v rs → ∀ rounds asked o t,
    Walks config vars body scope cx.enterLoop rs u rounds asked o t →
    Folds config vars body scope cx.enterLoop rs u rounds asked o t
  /-- There is such a walk if the body comes to an end each time that it is entered. -/
  ends : ∀ rs u, (∀ before row after rounds asked w, rs = before ++ row :: after →
      Walks config vars body scope cx.enterLoop before u rounds asked (.ok .empty) w →
      (∀ r ∈ rounds, r.outcome.leavesLoop? = none) → w.stopRequested = false →
      ∃ q w', Runs config (Exec.runBlock body (w.iterating scope vars row).1 cx.enterLoop)
        (w.iterating scope vars row).2 q w') →
    ∃ rounds asked o t, Walks config vars body scope cx.enterLoop rs u rounds asked o t

/-- **A loop over a value is a fold over a snapshot of its rows that is left early.** A value that
cannot be split into rows for the loop variables is refused before the body is entered. Otherwise the
rows are fixed: one for each element of a list in order, for each entry of a map in rising order of
the keys, for each character of a string. The body is entered for the first of them, each time in a
new scope in which exactly the loop variables are bound, up to the first row for which it breaks,
returns, throws or fails (`Outcome.leavesLoop?_eq_some_iff`), and for all of them if it never does.
Only a task that has been asked to stop ends the loop in any other way. -/
theorem range_loop_folds (config : Config) (p : Position) (vars : List Name) (iterable : Expr)
    (body : Block) (cx : Context) (there : scope.index < s.scopes.scopes.size) :
    LoopsOver config p vars iterable body scope cx s where
  splits v := by
    rcases rows_cases v vars.length with ⟨rs, -, splits⟩ | ⟨k, -, refuses⟩
    · exact Or.inl ⟨rs, splits⟩
    · exact Or.inr ⟨k, refuses⟩
  rising entries _ splits := ⟨splits.heads, entries.keys_rise⟩
  characters text rs splits := by
    refine ⟨_, splits.characters_eq, ?_, join_characters text⟩
    intro piece inside
    obtain ⟨c, -, rfl⟩ := List.mem_map.mp inside
    exact String.length_singleton
  padded _ _ splits several := splits.padded several
  refused evaluated v u k run refuses := by
    refine onlyRun_of_form (r := .raised (.ofKind k)) ((asks_bind_of_ok run).mpr ⟨[], ?_, by simp⟩)
    rw [refuses.rows_eq]
    exact (asks_of_done rfl).mpr ⟨rfl, rfl, rfl⟩
  walks evaluated v u rs run splits asked o t := by
    have form : ∀ inner r, Asks config (Exec.runForm p (.forIn vars iterable body) scope cx) s
        inner r t ↔ ∃ later, Asks config (Exec.runRows vars body scope cx.enterLoop rs) u later r t ∧
          inner = evaluated ++ later := by
      intro inner r
      rw [Exec.runForm, Exec.runForIn, asks_bind_of_ok run, splits.rows_eq]
      rfl
    simp only [asks_statement_iff, form, asks_runRows_iff]
    constructor
    · rintro ⟨_, r, ⟨inner, ⟨rounds, walks⟩, rfl⟩, rfl, rfl⟩
      exact ⟨rounds, inner, r, walks, rfl, rfl⟩
    · rintro ⟨rounds, inner, r, walks, rfl, rfl⟩
      exact ⟨_, r, ⟨inner, ⟨rounds, walks⟩, rfl⟩, rfl, rfl⟩
  folds evaluated v u rs run splits rounds asked o t walks :=
    walks.folds ((kept_of_asks_evaluate run).scopes.lt there) splits.long
  ends _ _ halts := exists_walks halts

/-! ## A list that its loop overwrites -/

/-- The elements of a list of lists. -/
def listOfLists : List (List Value) := [[.int 1], [.int 2, .int 3, .int 4]]

/-- A variable that holds them. -/
def listVariable : State :=
  { State.initial .deferred .log with
    scopes := (ScopeStore.empty.add none).define ⟨0⟩ "xs" (.list (listOfLists.map .list)) }

/-- Sets the variable to the values of the loop variables. -/
def overwriteList : Block :=
  [⟨⟨2, 3⟩, .assign [.variable ⟨2, 3⟩ "xs"] .assign [.list [.variable "a", .variable "b"]]⟩]

/-- The body is entered for both elements, although it has overwritten the list after the first one.
The first element has no second part, and the third part of the second element is dropped. -/
theorem range_loop_folds_overwritten :
    (⟨0⟩ : ScopeId).index < listVariable.scopes.scopes.size ∧
    ∃ evaluated rounds inner r t,
      Asks .standard (Exec.evaluate (.variable "xs") ⟨0⟩) listVariable evaluated
        (.ok (.list (listOfLists.map .list))) listVariable ∧
      SplitsInto 2 (.list (listOfLists.map .list)) [[.int 1, .nil], [.int 2, .int 3]] ∧
      Folds .standard ["a", "b"] overwriteList ⟨0⟩ Context.function.enterLoop
        [[.int 1, .nil], [.int 2, .int 3]] listVariable rounds inner r t ∧
      t.scopes.get? ⟨0⟩ "xs" = some (.list [.int 2, .int 3]) := by
  have there : (⟨0⟩ : ScopeId).index < listVariable.scopes.scopes.size := by decide
  have loop := range_loop_folds .standard ⟨1, 1⟩ ["a", "b"] (.variable "xs") overwriteList .function
    there
  obtain ⟨evaluated, xs⟩ : ∃ evaluated, Asks .standard (Exec.evaluate (.variable "xs") ⟨0⟩)
      listVariable evaluated (.ok (.list (listOfLists.map .list))) listVariable :=
    (runs_variable_iff.mpr ⟨rfl, ⟨0⟩, rfl, rfl⟩).asks
  have splits : SplitsInto 2 (.list (listOfLists.map .list)) [[.int 1, .nil], [.int 2, .int 3]] :=
    .parts listOfLists (by decide)
  obtain ⟨t, run, overwritten⟩ : ∃ t, Runs .standard (Exec.execute
      ⟨⟨1, 1⟩, .forIn ["a", "b"] (.variable "xs") overwriteList⟩ ⟨0⟩ .function) listVariable
      (.ok .empty) t ∧ t.scopes.get? ⟨0⟩ "xs" = some (.list [.int 2, .int 3]) :=
    ⟨_, runs_iff_run.mpr ⟨80, rfl⟩, rfl⟩
  obtain ⟨asked, run⟩ := run.asks
  obtain ⟨rounds, inner, r, walks, -⟩ := (loop.walks evaluated _ _ _ xs splits _ _ _).mp run
  have folds := loop.folds evaluated _ _ _ xs splits _ _ _ _ walks
  exact ⟨there, evaluated, rounds, inner, r, t, xs, splits, folds, overwritten⟩

end StatementEngine
