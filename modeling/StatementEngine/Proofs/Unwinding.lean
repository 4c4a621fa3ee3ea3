import StatementEngine.Proofs.Run.Abort
import StatementEngine.Proofs.Run.Alike
import StatementEngine.Proofs.Run.Asked

/-!
# Unwinding

**Leaving nested `try` statements.** A body stands in `try` statements, one directly in the other
(`nested`), each with a block at its end and perhaps a handler (`Guard`). Once the body has ended,
the levels are left one after the other, the innermost first (`Unwinds`).

* A level is left in two steps (`Leaves`): a pending throw goes to the handler, if there is one
  (`Handles`), and then the block at the end runs, whatever is pending.
* A block at the end that signals takes the place of what is pending (`Completion.overriddenBy`),
  and one that does not leaves it as it is.
* Where a block fails, the levels around it are left without running anything.

What became of a level is its `Round`. The main result is `nested_unwinds`: a run of the nested
statements asks for what is on the way in, for what the body asks, and for what the levels ask on
the way out, each in a scope of its own, and for nothing else.
-/

namespace StatementEngine

/-- The run has come to a value. -/
def Outcome.Completes : Outcome ε α → Prop
  | .ok _ => True
  | .raised _ | .panicked _ => False

/-- A signal of a later block takes the place of what is pending. -/
def Completion.overriddenBy (pending later : Completion) : Completion :=
  if later.isNormal then pending else later

/-- What is pending after a block that has ended in some way. -/
def Completion.after (pending : Completion) : Outcome EngineError Completion →
    Outcome EngineError Completion
  | .ok later => .ok (pending.overriddenBy later)
  | .raised e => .raised e
  | .panicked m => .panicked m

/-- A level of nested `try` statements. -/
structure Guard where
  position : Position
  handler : Option Handler
  cleanup : Block

/-- The statement that guards a body. -/
def Guard.around (g : Guard) (body : Block) : Stmt :=
  ⟨g.position, .tryCatch body g.handler (some g.cleanup)⟩

/-- A body in nested `try` statements; the first guard is the innermost. -/
def nested (body : Block) : List Guard → Block
  | [] => body
  | g :: outer => nested [g.around body] outer

/-- The scope and the state some levels further inside. -/
def inside (start : ScopeId × State) : Nat → ScopeId × State
  | 0 => start
  | levels + 1 => (inside start levels).2.newChild (inside start levels).1

/-- The scope and the state in which the handler of a statement begins: a new child of the scope of
the statement, in which the variable of the handler holds the value. -/
def State.catching (s : State) (scope : ScopeId) (h : Handler) (value : Value) : ScopeId × State :=
  let inner := s.newChild scope
  (inner.1, { inner.2 with
    scopes := inner.2.scopes.defineAll inner.1 (h.binding.toList.map fun name => (name, value)) })

/-- What is asked on the way to the body. -/
def wayIn (cx : Context) (start : ScopeId × State) : Block → List Guard → Questions
  | _, [] => []
  | body, g :: outer =>
    let here := inside start outer.length
    let inner := inside start (outer.length + 1)
    wayIn cx start [g.around body] outer ++
      [(.execute (g.around body) here.1 cx, here.2), (.block body inner.1 cx, inner.2)]

/-- What became of a level: how its handler and the block at its end have ended, if they ran. -/
structure Round where
  handled : Option (Outcome EngineError Completion)
  cleaned : Option (Outcome EngineError Completion)

namespace Round

/-- Nothing of the level ran. -/
def skipped : Round := ⟨none, none⟩

/-- The block at the end of the level ran and has completed. -/
def Completes (r : Round) : Prop := ∃ c, r.cleaned = some (.ok c)

/-- What is pending after a level: what its handler has completed with takes the place of what was
pending before, and a signal of the block at the end takes the place of both. -/
def settle (pending : Completion) (r : Round) : Completion :=
  let handled :=
    match r.handled with
    | some (.ok c) => c
    | _ => pending
  match r.cleaned with
  | some (.ok c) => handled.overriddenBy c
  | _ => handled

end Round

section
variable (config : Config) (cx : Context)

/-- A handler takes a throw and nothing else: from a completion that is pending and a state, how the
handler has ended if it ran, what has been asked, what is pending now, and the state. -/
inductive Handles (scope : ScopeId) (handler : Option Handler) : Completion → State →
    Option (Outcome EngineError Completion) → Questions →
    Outcome EngineError Completion → State → Prop
  | unused {c : Completion} {t : State}
      (other : ∀ h ∈ handler, ∀ v p, c.signal ≠ .thrown v p) :
      Handles scope handler c t none [] (.ok c) t
  | caught {c : Completion} {t u : State} {h : Handler} {v : Value} {p : Position}
      {asked : Questions} {o : Outcome EngineError Completion} (found : h ∈ handler)
      (thrown : c.signal = .thrown v p)
      (run : Asks config (Exec.blockBody h.body (t.catching scope h v).1 cx)
        (t.catching scope h v).2 asked o u) :
      Handles scope handler c t (some o)
        ((.block h.body (t.catching scope h v).1 cx, (t.catching scope h v).2) :: asked) o u

/-- A level is left after its body has ended in some way: what became of the level, what has been
asked, and how the statement ends. -/
inductive Leaves (scope : ScopeId) (g : Guard) : Outcome EngineError Completion → State → Round →
    Questions → Outcome EngineError Completion → State → Prop
  /-- The body has failed. -/
  | failed {o : Outcome EngineError Completion} {t : State} (fails : ¬ o.Completes) :
      Leaves scope g o t .skipped [] o t
  /-- The handler has failed. -/
  | abandoned {c : Completion} {t u : State} {k : Option (Outcome EngineError Completion)}
      {asked : Questions} {o : Outcome EngineError Completion}
      (handled : Handles config cx scope g.handler c t k asked o u) (fails : ¬ o.Completes) :
      Leaves scope g (.ok c) t ⟨k, none⟩ asked o u
  /-- The block at the end has run, in a new child of the scope of the statement. -/
  | cleaned {c pending : Completion} {t u v : State}
      {k : Option (Outcome EngineError Completion)} {asked asked' : Questions}
      {o : Outcome EngineError Completion}
      (handled : Handles config cx scope g.handler c t k asked (.ok pending) u)
      (run : Asks config (Exec.blockBody g.cleanup (u.newChild scope).1 cx)
        (u.newChild scope).2 asked' o v) :
      Leaves scope g (.ok c) t ⟨k, some o⟩
        (asked ++ (.block g.cleanup (u.newChild scope).1 cx, (u.newChild scope).2) :: asked')
        (pending.after o) v

/-- The levels are left one after the other, each in the scope that its statement runs in. -/
inductive Unwinds (start : ScopeId × State) : List Guard → Outcome EngineError Completion → State →
    List Round → Questions → Outcome EngineError Completion → State → Prop
  | out {o : Outcome EngineError Completion} {t : State} : Unwinds start [] o t [] [] o t
  | level {g : Guard} {outer : List Guard} {o o' o'' : Outcome EngineError Completion}
      {t t' t'' : State} {r : Round} {rounds : List Round} {asked asked' : Questions}
      (leaves : Leaves config cx (inside start outer.length).1 g o t r asked o' t')
      (unwinds : Unwinds start outer o' t' rounds asked' o'' t'') :
      Unwinds start (g :: outer) o t (r :: rounds) (asked ++ asked') o'' t''

end

/-! ## One level -/

variable {config : Config} {cx : Context} {start : ScopeId × State} {scope : ScopeId}
variable {s t u : State} {asked : Questions} {o : Outcome EngineError Completion}

theorem asks_runHandler_iff {handler : Option Handler} {c : Completion} :
    Asks config (Exec.runHandler handler c scope cx) t asked o u
      ↔ ∃ k, Handles config cx scope handler c t k asked o u := by
  unfold Exec.runHandler
  split
  · next h v p thrown =>
    -- the handler takes the throw
    have run : Asks config (do
          let inner ← Exec.newChild scope
          Exec.defineAll inner (h.binding.toList.map fun name => (name, v))
          Exec.runBlock h.body inner cx) t asked o u
        ↔ ∃ inner, Asks config (Exec.blockBody h.body (t.catching scope h v).1 cx)
            (t.catching scope h v).2 inner o u ∧
          asked = (.block h.body (t.catching scope h v).1 cx, (t.catching scope h v).2) :: inner :=
      asks_block_iff (s := (t.catching scope h v).2)
    rw [run]
    constructor
    · intro run
      obtain ⟨inner, hinner, rfl⟩ := run
      exact ⟨some o, .caught rfl thrown hinner⟩
    · intro run
      obtain ⟨k, handled⟩ := run
      cases handled with
      | unused other => exact absurd thrown (other h rfl v p)
      | caught found thrown' run =>
          cases found
          rw [thrown] at thrown'
          cases thrown'
          exact ⟨_, run, rfl⟩
  · next other =>
    rw [asks_pure_iff]
    constructor
    · intro run
      obtain ⟨rfl, rfl, rfl⟩ := run
      exact ⟨none, .unused fun h found v p thrown => other h v p found thrown⟩
    · intro run
      obtain ⟨k, handled⟩ := run
      cases handled with
      | unused _ => exact ⟨rfl, rfl, rfl⟩
      | caught found thrown _ => exact (other _ _ _ found thrown).elim

theorem asks_runCleanup_iff {cleanup : Block} {pending : Completion} :
    Asks config (Exec.runCleanup (some cleanup) pending scope cx) t asked o u ↔
      ∃ inner p, Asks config (Exec.blockBody cleanup (t.newChild scope).1 cx)
          (t.newChild scope).2 inner p u ∧ o = pending.after p ∧
        asked = (.block cleanup (t.newChild scope).1 cx, (t.newChild scope).2) :: inner := by
  have settled : ∀ c : Completion,
      (if c.isNormal then pure pending else pure c : Exec EngineError Completion)
        = pure (pending.overriddenBy c) := by
    intro c
    unfold Completion.overriddenBy
    split
    · rfl
    · rfl
  simp only [Exec.runCleanup, Exec.runOptional, settled, asks_bind_iff, asks_runChild_iff,
    asks_pure_iff]
  constructor
  · intro run
    rcases run with ⟨c, v, _, _, ⟨inner, hc, rfl⟩, ⟨rfl, rfl, rfl⟩, rfl⟩ |
      ⟨e, ⟨inner, he, rfl⟩, rfl⟩ | ⟨m, ⟨inner, hm, rfl⟩, rfl⟩
    · exact ⟨inner, _, hc, rfl, by simp⟩
    · exact ⟨inner, _, he, rfl, rfl⟩
    · exact ⟨inner, _, hm, rfl, rfl⟩
  · intro run
    obtain ⟨inner, p, hp, rfl, rfl⟩ := run
    cases p with
    | ok c => exact Or.inl ⟨c, u, _, [], ⟨inner, hp, rfl⟩, ⟨rfl, rfl, rfl⟩, by simp⟩
    | raised e => exact Or.inr (Or.inl ⟨e, ⟨inner, hp, rfl⟩, rfl⟩)
    | panicked m => exact Or.inr (Or.inr ⟨m, ⟨inner, hp, rfl⟩, rfl⟩)

/-- A statement asks for its body first and then for what is asked on leaving it. -/
theorem asks_runTry_iff {g : Guard} {body : Block} :
    Asks config (Exec.runTry body g.handler (some g.cleanup) scope cx) s asked o u ↔
      ∃ inner p t r out, Asks config (Exec.blockBody body (s.newChild scope).1 cx)
          (s.newChild scope).2 inner p t ∧ Leaves config cx scope g p t r out o u ∧
        asked = (.block body (s.newChild scope).1 cx, (s.newChild scope).2) :: (inner ++ out) := by
  simp only [Exec.runTry, asks_bind_iff, asks_runChild_iff, asks_runHandler_iff,
    asks_runCleanup_iff]
  constructor
  · intro run
    rcases run with ⟨c, t, _, rest, ⟨inner, hc, rfl⟩, left, rfl⟩ |
      ⟨e, ⟨inner, he, rfl⟩, rfl⟩ | ⟨m, ⟨inner, hm, rfl⟩, rfl⟩
    · rcases left with ⟨pending, v, first, _, ⟨k, handled⟩, ⟨last, p, hp, rfl, rfl⟩, rfl⟩ |
        ⟨e, ⟨k, handled⟩, rfl⟩ | ⟨m, ⟨k, handled⟩, rfl⟩
      · exact ⟨inner, _, t, _, _, hc, .cleaned handled hp, by simp⟩
      · exact ⟨inner, _, t, _, _, hc, .abandoned handled id, by simp⟩
      · exact ⟨inner, _, t, _, _, hc, .abandoned handled id, by simp⟩
    · exact ⟨inner, _, u, _, [], he, .failed id, by simp⟩
    · exact ⟨inner, _, u, _, [], hm, .failed id, by simp⟩
  · intro run
    obtain ⟨inner, p, t, r, out, hp, left, rfl⟩ := run
    cases left with
    | failed fails =>
        cases o with
        | ok c => exact (fails trivial).elim
        | raised e => exact Or.inr (Or.inl ⟨e, ⟨inner, hp, by simp⟩, rfl⟩)
        | panicked m => exact Or.inr (Or.inr ⟨m, ⟨inner, hp, by simp⟩, rfl⟩)
    | @abandoned c _ _ k _ _ handled fails =>
        refine Or.inl ⟨c, t, _, out, ⟨inner, hp, rfl⟩, ?_, rfl⟩
        cases o with
        | ok c => exact (fails trivial).elim
        | raised e => exact Or.inr (Or.inl ⟨e, ⟨k, handled⟩, rfl⟩)
        | panicked m => exact Or.inr (Or.inr ⟨m, ⟨k, handled⟩, rfl⟩)
    | @cleaned c pending _ v _ k first last q handled hq =>
        refine Or.inl ⟨c, t, _, _, ⟨inner, hp, rfl⟩, ?_, rfl⟩
        exact Or.inl ⟨pending, v, first, _, ⟨k, handled⟩, ⟨last, q, hq, rfl, rfl⟩, rfl⟩

/-! ## The way in -/

/-- New scopes do not concern tasks. -/
theorem stopRequested_inside (start : ScopeId × State) (n : Nat) :
    (inside start n).2.stopRequested = start.2.stopRequested := by
  induction n with
  | zero => rfl
  | succ n ih =>
      rw [← ih]
      rfl

/-! ## Positions -/

/-- The errors of a block have positions, so none is filled in. -/
theorem fill_of_asks_block {body : Block} {p : Position}
    (h : Asks config (Exec.blockBody body scope cx) s asked o t) :
    o.mapError (·.fillPosition p) = o := by
  cases o with
  | ok c => rfl
  | panicked m => rfl
  | raised e =>
      have located : e.position.isSome := position_of_runs_runFrom h.runs
      exact congrArg Outcome.raised (EngineError.fillPosition_of_isSome located p)

theorem Handles.fill {handler : Option Handler} {c : Completion} {p : Position}
    {k : Option (Outcome EngineError Completion)}
    (h : Handles config cx scope handler c t k asked o u) : o.mapError (·.fillPosition p) = o := by
  cases h with
  | unused other => rfl
  | caught found thrown run => exact fill_of_asks_block run

theorem Leaves.fill {g : Guard} {q : Outcome EngineError Completion} {r : Round} {p : Position}
    (h : Leaves config cx scope g q t r asked o u) (hq : q.mapError (·.fillPosition p) = q) :
    o.mapError (·.fillPosition p) = o := by
  cases h with
  | failed fails => exact hq
  | abandoned handled fails => exact handled.fill
  | @cleaned c pending _ _ _ k _ _ o handled run =>
      have located := fill_of_asks_block (p := p) run
      cases o with
      | ok later => rfl
      | raised e => exact congrArg (Completion.after pending) located
      | panicked m => rfl

/-! ## All levels -/

/-- A guarded body in a block of its own asks for the statement, for the body, and for what is asked
on leaving the statement. -/
theorem asks_around_iff {g : Guard} {body : Block} (awake : s.stopRequested = false) :
    Asks config (Exec.blockBody [g.around body] scope cx) s asked o u ↔
      ∃ inner p t r out, Asks config (Exec.blockBody body (s.newChild scope).1 cx)
          (s.newChild scope).2 inner p t ∧ Leaves config cx scope g p t r out o u ∧
        asked = [(.execute (g.around body) scope cx, s),
          (.block body (s.newChild scope).1 cx, (s.newChild scope).2)] ++ inner ++ out := by
  have alone : Asks config (Exec.blockBody [g.around body] scope cx) s asked o u
      ↔ Asks config (Exec.execute (g.around body) scope cx) s asked o u := by
    unfold Asks
    rw [Exec.blockBody_singleton awake]
  have form : ∀ {inner p}, Asks config (Exec.executeBody (g.around body) scope cx) s inner p u
      ↔ ∃ q, Asks config (Exec.runTry body g.handler (some g.cleanup) scope cx) s inner q u ∧
        p = q.mapError (·.fillPosition g.position) :=
    asks_located_failing_iff
  simp only [alone, asks_execute_iff, form, asks_runTry_iff]
  constructor
  · intro run
    obtain ⟨_, ⟨q, ⟨inner, p, t, r, out, hp, left, rfl⟩, rfl⟩, rfl⟩ := run
    rw [left.fill (fill_of_asks_block hp)]
    exact ⟨inner, p, t, r, out, hp, left, by simp⟩
  · intro run
    obtain ⟨inner, p, t, r, out, hp, left, rfl⟩ := run
    refine ⟨_, ⟨o, ⟨inner, p, t, r, out, hp, left, rfl⟩, ?_⟩, by simp⟩
    exact (left.fill (fill_of_asks_block hp)).symm

/-- Nested statements ask for what is on the way in, for what the body asks, and for what the levels
ask on the way out. -/
theorem asks_nested_iff (start : ScopeId × State) {body : Block} {guards : List Guard}
    (awake : start.2.stopRequested = false) :
    Asks config (Exec.blockBody (nested body guards) start.1 cx) start.2 asked o u ↔
      ∃ inner p t rounds out,
        Asks config (Exec.blockBody body (inside start guards.length).1 cx)
          (inside start guards.length).2 inner p t ∧
        Unwinds config cx start guards p t rounds out o u ∧
        asked = wayIn cx start body guards ++ inner ++ out := by
  induction guards generalizing body with
  | nil =>
      constructor
      · intro h
        exact ⟨asked, o, u, [], [], h, .out, by simp [wayIn]⟩
      · intro run
        obtain ⟨inner, p, t, rounds, out, hp, unwinds, rfl⟩ := run
        cases unwinds
        simpa [wayIn, nested, inside] using hp
  | cons g outer ih =>
      have awake' : (inside start outer.length).2.stopRequested = false := by
        rw [stopRequested_inside, awake]
      rw [nested, ih]
      simp only [asks_around_iff awake']
      constructor
      · intro run
        obtain ⟨_, p, t, rounds, out, ⟨inner, q, v, r, out', hq, left, rfl⟩, unwinds, rfl⟩ := run
        exact ⟨inner, q, v, r :: rounds, out' ++ out, hq, .level left unwinds,
          by simp [wayIn, inside]⟩
      · intro run
        obtain ⟨inner, q, v, _, _, hq, unwinds, rfl⟩ := run
        cases unwinds with
        | level left unwinds =>
            exact ⟨_, _, _, _, _, ⟨inner, q, v, _, _, hq, left, rfl⟩, unwinds,
              by simp [wayIn, inside]⟩

/-! ## What the levels come to -/

section Rounds
variable {guards : List Guard} {p : Outcome EngineError Completion} {c : Completion}
variable {rounds : List Round} {out : Questions}

theorem Leaves.of_not_completes {g : Guard} {r : Round} (fails : ¬ p.Completes)
    (h : Leaves config cx scope g p t r out o u) : r = .skipped ∧ o = p ∧ u = t := by
  cases h with
  | failed _ => exact ⟨rfl, rfl, rfl⟩
  | abandoned _ _ => exact (fails trivial).elim
  | cleaned _ _ => exact (fails trivial).elim

/-- Around a failure no level runs anything. -/
theorem Unwinds.of_not_completes (fails : ¬ p.Completes)
    (h : Unwinds config cx start guards p t rounds out o u) :
    (∀ r ∈ rounds, r = .skipped) ∧ o = p := by
  induction h with
  | out => exact ⟨by simp, rfl⟩
  | level leaves _ ih =>
      obtain ⟨rfl, rfl, -⟩ := leaves.of_not_completes fails
      obtain ⟨skipped, rfl⟩ := ih fails
      exact ⟨List.forall_mem_cons.mpr ⟨rfl, skipped⟩, rfl⟩

theorem Unwinds.length_eq (h : Unwinds config cx start guards p t rounds out o u) :
    rounds.length = guards.length := by
  induction h with
  | out => rfl
  | level _ _ ih => simp [ih]

/-- How a level is left whose handler has not failed: by its block at the end. -/
theorem Leaves.cases_of_handled {g : Guard} {r : Round}
    (h : Leaves config cx scope g (.ok c) t r out o u) (handled : ∀ k ∈ r.handled, k.Completes) :
    (∃ f, r.cleaned = some (.ok f) ∧ o = .ok (r.settle c)) ∨
      ∃ q, r.cleaned = some q ∧ ¬ q.Completes ∧ o = q := by
  -- what is pending after the handler is what the round says
  have settled : ∀ {k out' pending v},
      Handles config cx scope g.handler c t k out' (.ok pending) v →
      ∀ f, (Round.mk k (some (.ok f))).settle c = pending.overriddenBy f := by
    intro k out' pending v h f
    cases h with
    | unused _ => rfl
    | caught _ _ _ => rfl
  cases h with
  | failed fails => exact (fails trivial).elim
  | abandoned h fails =>
      cases h with
      | unused _ => exact (fails trivial).elim
      | caught _ _ _ => exact (fails (handled _ rfl)).elim
  | @cleaned _ pending _ _ _ k _ _ q h run =>
      cases q with
      | ok f => exact Or.inl ⟨f, rfl, congrArg Outcome.ok (settled h f).symm⟩
      | raised e => exact Or.inr ⟨.raised e, rfl, id, rfl⟩
      | panicked m => exact Or.inr ⟨.panicked m, rfl, id, rfl⟩

/-- If no handler fails then either every block at the end has completed, and what comes out is
settled level by level, or one of them has failed, and nothing of the levels around it has run. -/
theorem Unwinds.cases_of_handled (h : Unwinds config cx start guards (.ok c) t rounds out o u)
    (handled : ∀ r ∈ rounds, ∀ k ∈ r.handled, k.Completes) :
    ((∀ r ∈ rounds, r.Completes) ∧ o = .ok (rounds.foldl Round.settle c)) ∨
      ∃ before r after q, rounds = before ++ r :: after ∧ (∀ b ∈ before, b.Completes) ∧
        r.cleaned = some q ∧ ¬ q.Completes ∧ o = q ∧ ∀ a ∈ after, a = .skipped := by
  induction guards generalizing c t rounds out with
  | nil =>
      cases h
      exact Or.inl ⟨by simp, rfl⟩
  | cons g outer ih =>
      cases h with
      | @level _ _ _ o' _ _ t' _ r rounds _ _ leaves unwinds =>
        rcases leaves.cases_of_handled (handled r List.mem_cons_self) with
          ⟨f, hf, rfl⟩ | ⟨q, hq, fails, rfl⟩
        · rcases ih unwinds fun r hr => handled r (List.mem_cons_of_mem _ hr) with
            ⟨completes, rfl⟩ | ⟨before, stop, after, q, rfl, completes, rest⟩
          · exact Or.inl ⟨List.forall_mem_cons.mpr ⟨⟨f, hf⟩, completes⟩, rfl⟩
          · refine Or.inr ⟨r :: before, stop, after, q, rfl, ?_, rest⟩
            exact List.forall_mem_cons.mpr ⟨⟨f, hf⟩, completes⟩
        · obtain ⟨skipped, rfl⟩ := unwinds.of_not_completes fails
          exact Or.inr ⟨[], r, rounds, _, rfl, by simp, hq, fails, rfl, skipped⟩

theorem Handles.eq_none_of_bare {handler : Option Handler}
    {k : Option (Outcome EngineError Completion)} (bare : handler = none)
    (h : Handles config cx scope handler c t k out o u) : k = none := by
  cases h with
  | unused _ => rfl
  | caught found _ _ =>
      rw [bare] at found
      cases found

theorem Unwinds.handled_eq_none (bare : ∀ g ∈ guards, g.handler = none)
    (h : Unwinds config cx start guards p t rounds out o u) : ∀ r ∈ rounds, r.handled = none := by
  induction h with
  | out => simp
  | @level g outer _ _ _ _ _ _ r rounds _ _ leaves _ ih =>
      have here : g.handler = none := bare g List.mem_cons_self
      refine List.forall_mem_cons.mpr ⟨?_, ih fun g hg => bare g (List.mem_cons_of_mem _ hg)⟩
      cases leaves with
      | failed _ => rfl
      | abandoned handled _ => exact handled.eq_none_of_bare here
      | cleaned handled _ => exact handled.eq_none_of_bare here

end Rounds

/-- Of completions that override one another the last one with a signal stands. -/
theorem foldl_overriddenBy (fs : List Completion) (c : Completion) :
    fs.foldl Completion.overriddenBy c = (fs.reverse.find? fun f => !f.isNormal).getD c := by
  induction fs generalizing c with
  | nil => rfl
  | cons f rest ih =>
      rw [List.foldl_cons, ih, List.reverse_cons, List.find?_append, Completion.overriddenBy]
      cases hf : f.isNormal <;> cases rest.reverse.find? fun f => !f.isNormal <;> simp [hf]

/-- What bare levels settle, all of whose blocks at the end have completed. -/
theorem exists_completions_of_bare {rounds : List Round} (bare : ∀ r ∈ rounds, r.handled = none)
    (completes : ∀ r ∈ rounds, r.Completes) :
    ∃ fs : List Completion, rounds = fs.map (fun f => ⟨none, some (.ok f)⟩) ∧
      ∀ c, rounds.foldl Round.settle c = fs.foldl Completion.overriddenBy c := by
  induction rounds with
  | nil => exact ⟨[], rfl, fun c => rfl⟩
  | cons r rest ih =>
      obtain ⟨fs, rfl, settled⟩ := ih (fun r hr => bare r (List.mem_cons_of_mem _ hr))
        fun r hr => completes r (List.mem_cons_of_mem _ hr)
      obtain ⟨f, hf⟩ := completes r List.mem_cons_self
      have hr : r = ⟨none, some (.ok f)⟩ := by
        obtain ⟨handled, cleaned⟩ := r
        obtain rfl : handled = none := bare _ List.mem_cons_self
        obtain rfl : cleaned = some (.ok f) := hf
        rfl
      subst hr
      exact ⟨f :: fs, rfl, fun c => settled _⟩

/-- **Unwinding.** A body stands in nested `try` statements, in a task that is not to stop, and ends
with a completion. Then a run of the statements asks for what is on the way in, for what the body
asks, and for what the levels ask that are left from the innermost on (`Unwinds`).

If no handler fails then either every block at the end has run and completed, and the completion of
the body is settled level by level, or one of them has failed and nothing around it has run. Without
handlers the last signal stands. -/
theorem nested_unwinds {body : Block} {guards : List Guard} {c : Completion} {inner : Questions}
    (awake : s.stopRequested = false)
    (ended : Asks config (Exec.blockBody body (inside (scope, s) guards.length).1 cx)
      (inside (scope, s) guards.length).2 inner (.ok c) t) :
    (∀ asked o u, Asks config (Exec.runBlock (nested body guards) scope cx) s asked o u ↔
      ∃ rounds out, Unwinds config cx (scope, s) guards (.ok c) t rounds out o u ∧
        asked = (.block (nested body guards) scope cx, s) ::
          (wayIn cx (scope, s) body guards ++ inner ++ out)) ∧
    ∀ rounds out o u, Unwinds config cx (scope, s) guards (.ok c) t rounds out o u →
      (∀ r ∈ rounds, ∀ k ∈ r.handled, k.Completes) →
      rounds.length = guards.length ∧
      (((∀ r ∈ rounds, r.Completes) ∧ o = .ok (rounds.foldl Round.settle c)) ∨
        ∃ before r after q, rounds = before ++ r :: after ∧ (∀ b ∈ before, b.Completes) ∧
          r.cleaned = some q ∧ ¬ q.Completes ∧ o = q ∧ ∀ a ∈ after, a = .skipped) ∧
      ((∀ g ∈ guards, g.handler = none) → ∀ d, o = .ok d →
        ∃ fs : List Completion, rounds = fs.map (fun f => ⟨none, some (.ok f)⟩) ∧
          d = (fs.reverse.find? fun f => !f.isNormal).getD c) := by
  refine ⟨fun asked o u => ?_, fun rounds out o u unwinds handled => ?_⟩
  · simp only [asks_block_iff, asks_nested_iff (scope, s) awake]
    constructor
    · intro run
      obtain ⟨_, ⟨inner', p, t', rounds, out, hp, unwinds, rfl⟩, rfl⟩ := run
      -- the body has one run
      obtain ⟨rfl, rfl, rfl⟩ := hp.unique ended
      exact ⟨rounds, out, unwinds, rfl⟩
    · intro run
      obtain ⟨rounds, out, unwinds, rfl⟩ := run
      exact ⟨_, ⟨inner, .ok c, t, rounds, out, ended, unwinds, rfl⟩, rfl⟩
  · have levels := unwinds.cases_of_handled handled
    refine ⟨unwinds.length_eq, levels, fun bare d hd => ?_⟩
    subst hd
    rcases levels with ⟨completes, hd⟩ | ⟨_, _, _, q, -, -, -, fails, rfl, -⟩
    · obtain ⟨fs, hfs, settled⟩ :=
        exists_completions_of_bare (unwinds.handled_eq_none bare) completes
      refine ⟨fs, hfs, ?_⟩
      rw [← foldl_overriddenBy, ← settled]
      exact Outcome.ok.inj hd
    · exact (fails trivial).elim

/-- A throw that the inner handler takes, whose return the outer block at the end takes the place
of. -/
theorem nested_unwinds_handler :
    let one : Expr := .literal (.int 1)
    let body : Block := [⟨⟨3, 1⟩, .throwValue one⟩]
    let handler : Handler := ⟨⟨4, 1⟩, some "e", [⟨⟨4, 5⟩, .returnValues [.variable "e"]⟩]⟩
    let guards : List Guard := [⟨⟨2, 1⟩, some handler, []⟩, ⟨⟨1, 1⟩, none, [⟨⟨5, 1⟩, .breakLoop⟩]⟩]
    let s := (State.initial .deferred .log).newRoot
    s.2.stopRequested = false ∧
      ∃ inner c t, Asks .standard (Exec.blockBody body (inside s 2).1 .handedOver) (inside s 2).2
          inner (.ok c) t ∧
        ∃ rounds out d u, Unwinds .standard .handedOver s guards (.ok c) t rounds out (.ok d) u ∧
          d.signal = .breakLoop ∧ rounds.length = 2 := by
  intro one body handler guards s
  obtain ⟨t, ended⟩ : ∃ t, Runs .standard (Exec.blockBody body (inside s 2).1 .handedOver)
      (inside s 2).2 (.ok (.ofSignal (.thrown (.int 1) ⟨3, 1⟩))) t :=
    ⟨_, runs_iff_run.mpr ⟨20, rfl⟩⟩
  obtain ⟨inner, ended⟩ := ended.asks
  obtain ⟨u, run⟩ : ∃ u, Runs .standard (Exec.runBlock (nested body guards) s.1 .handedOver) s.2
      (.ok (.ofSignal .breakLoop)) u := ⟨_, runs_iff_run.mpr ⟨80, rfl⟩⟩
  obtain ⟨asked, run⟩ := run.asks
  obtain ⟨rounds, out, unwinds, -⟩ :=
    ((@nested_unwinds _ _ s.1 s.2 t body guards _ inner rfl ended).1 _ _ _).mp run
  exact ⟨rfl, inner, _, t, ended, rounds, out, _, u, unwinds, rfl, unwinds.length_eq⟩

end StatementEngine
