import StatementEngine.Proofs.Candidates
import StatementEngine.Proofs.Run.Alike
import StatementEngine.Proofs.Run.Asked

/-!
# A switch is a chain of comparisons

**Once its subject has been evaluated, a switch runs as a chain of branches.** There is a branch for
each candidate of each case, in order (`Case.branches`): its condition compares the candidate with
the subject, and it has the block and the position of the case.

What the candidates come to is the selection of a block (`Selects`): they are evaluated in order up
to the first that equals the subject. After that nothing runs but the block that has been selected,
if one has been (`asks_runCandidates_iff`).

The main result is `switch_as_branches`.
-/

namespace StatementEngine

/-- The branch that compares a candidate with a value. -/
def Case.branch (subject : Value) : Expr × Position × Block → Branch
  | (e, p, body) => ⟨p, .binary .equal e (.literal subject), body⟩

/-- The branches that compare the candidates of cases with a value. -/
def Case.branches (subject : Value) (cases : List Case) : List Branch :=
  (Case.candidates cases).map (Case.branch subject)

variable {config : Config} {scope : ScopeId} {cx : Context} {subject : Value}
  {default : Option Block} {s t u : State} {candidates : List (Expr × Position × Block)}

/-! ## Candidates as branches -/

/-- Comparing with a literal is evaluating the other operand and looking at its value. -/
theorem Exec.alike_evaluate_equal (e : Expr) (v : Value) :
    (Exec.evaluate (.binary .equal e (.literal v)) scope).Alike config (do
      let w ← Exec.evaluate e scope
      pure (.bool (w.equal v))) := by
  have literal : (Exec.evaluate (.literal v) scope).Alike config (pure v) :=
    fun _ _ _ => runs_evaluate_iff
  have body : (Exec.evaluate (.binary .equal e (.literal v)) scope).Alike config
      (Exec.evaluateBody (.binary .equal e (.literal v)) scope) := fun _ _ _ => runs_evaluate_iff
  refine body.trans ((Exec.Alike.refl _).bind fun w => ?_)
  exact literal.bind_left.trans (.of_eq rfl)

/-- Trying candidates is trying the branches that compare them. -/
theorem Exec.alike_runCandidates (candidates : List (Expr × Position × Block)) :
    (Exec.runCandidates subject default scope cx candidates).Alike config
      (Exec.runBranches default scope cx (candidates.map (Case.branch subject))) := by
  induction candidates with
  | nil => exact .refl _
  | cons candidate rest ih =>
      obtain ⟨e, p, body⟩ := candidate
      have compared : Exec.Alike config
          ((Exec.evaluate (.binary .equal e (.literal subject)) scope).mapError (·.fillPosition p))
          (do
            let w ← (Exec.evaluate e scope).mapError (·.fillPosition p)
            pure (.bool (w.equal subject))) := by
        refine (Exec.alike_evaluate_equal e subject).mapError.trans (.of_eq ?_)
        rw [Exec.mapError_bind]
        rfl
      refine .symm (compared.bind_left.trans ?_)
      rw [bind_assoc]
      refine (Exec.Alike.refl _).bind fun w => ?_
      -- the condition holds if the candidate equals the subject
      show Exec.Alike config (if w.equal subject then _ else _) (if w.equal subject then _ else _)
      split
      · exact .refl _
      · exact ih.symm

/-! ## What is evaluated -/

/-- Candidates are evaluated in order until one equals the subject, and the block of that one is
selected. The default is selected if there is none. A candidate without a value ends the
selection. -/
inductive Selects (config : Config) (scope : ScopeId) (subject : Value) (default : Option Block) :
    List (Expr × Position × Block) → State → Questions → Outcome Raise (Option Block) → State → Prop
  | default (s : State) : Selects config scope subject default [] s [] (.ok default) s
  | equals {e : Expr} {p : Position} {body : Block} {rest : List (Expr × Position × Block)}
      {s t : State} {asked : Questions} {w : Value}
      (evaluated : Asks config (Exec.evaluate e scope) s asked (.ok w) t)
      (same : w.equal subject = true) :
      Selects config scope subject default ((e, p, body) :: rest) s asked (.ok (some body)) t
  | differs {e : Expr} {p : Position} {body : Block} {rest : List (Expr × Position × Block)}
      {s t u : State} {first later : Questions} {w : Value} {r : Outcome Raise (Option Block)}
      (evaluated : Asks config (Exec.evaluate e scope) s first (.ok w) u)
      (other : w.equal subject = false)
      (selects : Selects config scope subject default rest u later r t) :
      Selects config scope subject default ((e, p, body) :: rest) s (first ++ later) r t
  | fails {e : Expr} {p : Position} {body : Block} {rest : List (Expr × Position × Block)}
      {s t : State} {asked : Questions} {error : Raise}
      (evaluated : Asks config (Exec.evaluate e scope) s asked (.raised error) t) :
      Selects config scope subject default ((e, p, body) :: rest) s asked
        (.raised (error.fillPosition p)) t
  | panics {e : Expr} {p : Position} {body : Block} {rest : List (Expr × Position × Block)}
      {s t : State} {asked : Questions} {message : String}
      (evaluated : Asks config (Exec.evaluate e scope) s asked (.panicked message) t) :
      Selects config scope subject default ((e, p, body) :: rest) s asked (.panicked message) t

/-- Runs the block that has been selected, if one has been. -/
def Exec.runSelected (scope : ScopeId) (cx : Context) :
    Outcome Raise (Option Block) → Exec Raise Completion
  | .ok body => failing (runOptional body scope cx)
  | .raised e => raise e
  | .panicked m => panic m

/-- Candidates select a block, and then that block runs and nothing else. -/
theorem asks_runCandidates_iff {asked : Questions} {o : Outcome Raise Completion} :
    Asks config (Exec.runCandidates subject default scope cx candidates) s asked o t ↔
      ∃ tried r u ran, Selects config scope subject default candidates s tried r u ∧
        Asks config (Exec.runSelected scope cx r) u ran o t ∧ asked = tried ++ ran := by
  constructor
  · intro run
    induction candidates generalizing s asked with
    | nil => exact ⟨[], .ok default, s, asked, .default s, run, rfl⟩
    | cons candidate rest ih =>
        obtain ⟨e, p, body⟩ := candidate
        rcases asks_bind_iff.mp run with ⟨w, u, first, next, tried, more, rfl⟩ | ⟨e', tried, rfl⟩ |
          ⟨m, tried, rfl⟩
        · obtain ⟨r, evaluated, same⟩ := asks_mapError_iff.mp tried
          obtain rfl := Outcome.ok_eq_mapError_iff.mp same
          cases test : w.equal subject with
          | true =>
              rw [if_pos test] at more
              exact ⟨first, .ok (some body), u, next, .equals evaluated test, more, rfl⟩
          | false =>
              rw [if_neg (by simp [test])] at more
              obtain ⟨later, r, u', ran, selects, selected, rfl⟩ := ih more
              exact ⟨first ++ later, r, u', ran, .differs evaluated test selects, selected,
                (List.append_assoc ..).symm⟩
        · obtain ⟨r, evaluated, same⟩ := asks_mapError_iff.mp tried
          obtain ⟨error, rfl, rfl⟩ := Outcome.raised_eq_mapError_iff.mp same
          exact ⟨asked, _, t, [], .fails evaluated, (asks_of_done rfl).mpr ⟨rfl, rfl, rfl⟩, by simp⟩
        · obtain ⟨r, evaluated, same⟩ := asks_mapError_iff.mp tried
          obtain rfl := Outcome.panicked_eq_mapError_iff.mp same
          exact ⟨asked, _, t, [], .panics evaluated, (asks_of_done rfl).mpr ⟨rfl, rfl, rfl⟩, by simp⟩
  · rintro ⟨tried, r, u, ran, selects, run, rfl⟩
    induction selects with
    | default s => exact run
    | equals evaluated same =>
        refine (asks_bind_of_ok (asks_mapError_iff.mpr ⟨_, evaluated, rfl⟩)).mpr ⟨ran, ?_, rfl⟩
        rw [if_pos same]
        exact run
    | differs evaluated other _ ih =>
        refine (asks_bind_of_ok (asks_mapError_iff.mpr ⟨_, evaluated, rfl⟩)).mpr
          ⟨_, ?_, List.append_assoc ..⟩
        rw [if_neg (by simp [other])]
        exact ih run
    | fails evaluated =>
        obtain ⟨rfl, rfl, rfl⟩ := (asks_of_done rfl).mp run
        rw [List.append_nil]
        exact asks_bind_iff.mpr (Or.inr (Or.inl ⟨_, asks_mapError_iff.mpr ⟨_, evaluated, rfl⟩, rfl⟩))
    | panics evaluated =>
        obtain ⟨rfl, rfl, rfl⟩ := (asks_of_done rfl).mp run
        rw [List.append_nil]
        exact asks_bind_iff.mpr (Or.inr (Or.inr ⟨_, asks_mapError_iff.mpr ⟨_, evaluated, rfl⟩, rfl⟩))

/-! ## The statement -/

/-- **A switch is a chain of comparisons.** When the subject of a switch has been evaluated, what is
left of the switch comes to an end exactly if the chain of branches does that compares its candidates
with the subject one after the other and has the default at its end. The outcome is the same then,
the kind and the position of an error included, and so is the state.

What the switch asks on its way is what its subject asks, what its candidates ask in order up to the
first that equals the subject, and what the one block asks that has been selected, if there is one.
-/
theorem switch_as_branches (config : Config) (p : Position) (subject : Expr) (cases : List Case)
    (default : Option Block) (scope : ScopeId) (cx : Context) {s u : State} {v : Value}
    {evaluated : Questions} (run : Asks config (Exec.evaluate subject scope) s evaluated (.ok v) u) :
    (∀ o t, Runs config (Exec.execute ⟨p, .switch subject cases default⟩ scope cx) s o t ↔
      Runs config (Exec.execute ⟨p, .ifChain (Case.branches v cases) default⟩ scope cx) u o t) ∧
    ∀ asked o t, Asks config (Exec.execute ⟨p, .switch subject cases default⟩ scope cx) s asked o t ↔
      ∃ tried r w ran q, Selects config scope v default (Case.candidates cases) u tried r w ∧
        Asks config (Exec.runSelected scope cx r) w ran q t ∧ o = q.located p ∧
        asked = (.execute ⟨p, .switch subject cases default⟩ scope cx, s) ::
          (evaluated ++ (tried ++ ran)) := by
  constructor
  · intro o t
    simp only [runs_execute_iff, Exec.executeBody, runs_located_iff]
    refine exists_congr fun q => and_congr_left fun _ => ?_
    have chain : (Exec.runCases v default scope cx cases).Alike config
        (Exec.runBranches default scope cx (Case.branches v cases)) := by
      rw [Exec.runCases_eq]
      exact Exec.alike_runCandidates (Case.candidates cases)
    exact (runs_bind_of_ok run.runs).trans (chain u q t)
  · intro asked o t
    simp only [asks_execute_iff, Exec.executeBody, asks_located_iff]
    constructor
    · rintro ⟨_, ⟨q, form, rfl⟩, rfl⟩
      obtain ⟨rest, chosen, rfl⟩ := (asks_bind_of_ok run).mp form
      rw [Exec.runCases_eq] at chosen
      obtain ⟨tried, r, w, ran, selects, selected, rfl⟩ := asks_runCandidates_iff.mp chosen
      exact ⟨tried, r, w, ran, q, selects, selected, rfl, rfl⟩
    · rintro ⟨tried, r, w, ran, q, selects, selected, rfl, rfl⟩
      refine ⟨_, ⟨q, (asks_bind_of_ok run).mpr ⟨_, ?_, rfl⟩, rfl⟩, rfl⟩
      rw [Exec.runCases_eq]
      exact asks_runCandidates_iff.mpr ⟨tried, r, w, ran, selects, selected, rfl⟩

/-! ## Candidates that count -/

/-- A state with a counter. -/
def switchCounter : State :=
  { State.initial .deferred .log with
    scopes := (ScopeStore.empty.add none).define ⟨0⟩ "count" (.int 0) }

/-- Counts, and yields what the counter has come to. -/
def countUp : Expr := .set "count" (.binary .add (.variable "count") (.literal (.int 1)))

/-- Tells what the counter has come to. -/
def tellCount : Block :=
  [⟨⟨9, 1⟩, .expr (.call (.literal (.function .recorder)) [.variable "count"])⟩]

/-- A case without candidates, one whose candidates count, and one that must not be looked at. -/
def countingCases : List Case :=
  [⟨⟨2, 1⟩, [], []⟩, ⟨⟨3, 1⟩, [.literal (.str "2"), countUp, countUp], tellCount⟩,
    ⟨⟨4, 1⟩, [.fail "looked at"], []⟩]

/-- The second candidate of the second case is the first that equals the subject, in a switch and in
a chain. -/
theorem switch_as_branches_counting : ∃ evaluated u t,
    Asks .standard (Exec.evaluate (.literal (.int 1)) ⟨0⟩) switchCounter evaluated (.ok (.int 1)) u ∧
    Runs .standard (Exec.execute ⟨⟨1, 1⟩, .switch (.literal (.int 1)) countingCases none⟩ ⟨0⟩ .function)
      switchCounter (.ok ⟨some .nil, .none⟩) t ∧
    Runs .standard (Exec.execute
      ⟨⟨1, 1⟩, .ifChain
        [⟨⟨3, 1⟩, .binary .equal (.literal (.str "2")) (.literal (.int 1)), tellCount⟩,
          ⟨⟨3, 1⟩, .binary .equal countUp (.literal (.int 1)), tellCount⟩,
          ⟨⟨3, 1⟩, .binary .equal countUp (.literal (.int 1)), tellCount⟩,
          ⟨⟨4, 1⟩, .binary .equal (.fail "looked at") (.literal (.int 1)), []⟩] none⟩ ⟨0⟩ .function)
      u (.ok ⟨some .nil, .none⟩) t ∧
    t.recorded = #[.int 1] := by
  obtain ⟨evaluated, subject⟩ : ∃ evaluated, Asks .standard (Exec.evaluate (.literal (.int 1)) ⟨0⟩)
      switchCounter evaluated (.ok (.int 1)) switchCounter :=
    (runs_iff_run.mpr ⟨10, rfl⟩ : Runs .standard _ _ _ _).asks
  obtain ⟨t, run, told⟩ : ∃ t, Runs .standard
      (Exec.execute ⟨⟨1, 1⟩, .switch (.literal (.int 1)) countingCases none⟩ ⟨0⟩ .function)
      switchCounter (.ok ⟨some .nil, .none⟩) t ∧ t.recorded = #[.int 1] :=
    ⟨_, runs_iff_run.mpr ⟨60, rfl⟩, rfl⟩
  exact ⟨evaluated, switchCounter, t, subject, run,
    ((switch_as_branches .standard ⟨1, 1⟩ _ countingCases none ⟨0⟩ .function subject).1 _ t).mp run,
    told⟩

end StatementEngine
