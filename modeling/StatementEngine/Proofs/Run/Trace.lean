import StatementEngine.Resumption.Evaluation

/-!
# The questions of a run

**A trace lists the questions that a run asks**, each with the state that it is asked in, and the
questions of its answer after it (`Resumption.Traces`). A run has one trace, as it has one result.

A run may be looked at before it has ended: `Resumption.Reaches` says that a question is about to be
asked, at any depth, and which questions have been asked until then. Some questions are closed: what
goes on while they are answered does not count as part of the run.
-/

namespace StatementEngine

namespace Resumption

variable {Q : Type} {A : Q → Type} {σ α β : Type}

/-- The computation finishes with an answer in a state and has asked some questions. -/
inductive Traces (bodies : Bodies A σ) :
    {α : Type} → Resumption A σ α → List (Q × σ) → α → σ → Prop where
  | done {α : Type} (a : α) (s : σ) : Traces bodies (.done a s) [] a s
  | ask {α : Type} {q : Q} {s s' s'' : σ} {resume : A q → σ → Resumption A σ α} {b : A q} {a : α}
      {inner rest : List (Q × σ)} (answered : Traces bodies (bodies q s) inner b s')
      (resumed : Traces bodies (resume b s') rest a s'') :
      Traces bodies (.ask q s resume) ((q, s) :: (inner ++ rest)) a s''

/-- A question is about to be asked, after some others. Closed questions are not looked into. -/
inductive Reaches (bodies : Bodies A σ) (isOpen : Q → Prop) :
    {α : Type} → Resumption A σ α → List (Q × σ) → Q → σ → Prop where
  | here {α : Type} (q : Q) (s : σ) (resume : A q → σ → Resumption A σ α) :
      Reaches bodies isOpen (.ask q s resume) [] q s
  | inside {α : Type} {q q' : Q} {s s' : σ} {resume : A q → σ → Resumption A σ α}
      {before : List (Q × σ)} (opened : isOpen q)
      (reached : Reaches bodies isOpen (bodies q s) before q' s') :
      Reaches bodies isOpen (.ask q s resume) ((q, s) :: before) q' s'
  | after {α : Type} {q q' : Q} {s s' s'' : σ} {resume : A q → σ → Resumption A σ α} {b : A q}
      {inner before : List (Q × σ)} (answered : Traces bodies (bodies q s) inner b s')
      (reached : Reaches bodies isOpen (resume b s') before q' s'') :
      Reaches bodies isOpen (.ask q s resume) ((q, s) :: (inner ++ before)) q' s''

variable {bodies : Bodies A σ}

theorem traces_done_iff {a b : α} {s t : σ} {trace : List (Q × σ)} :
    Traces bodies (.done a s) trace b t ↔ trace = [] ∧ b = a ∧ t = s := by
  constructor
  · intro h
    cases h
    exact ⟨rfl, rfl, rfl⟩
  · intro run
    obtain ⟨rfl, rfl, rfl⟩ := run
    exact .done b t

theorem traces_ask_iff {q : Q} {s t : σ} {resume : A q → σ → Resumption A σ α}
    {trace : List (Q × σ)} {a : α} :
    Traces bodies (.ask q s resume) trace a t ↔
      ∃ b s' inner rest, Traces bodies (bodies q s) inner b s' ∧
        Traces bodies (resume b s') rest a t ∧ trace = (q, s) :: (inner ++ rest) := by
  constructor
  · intro h
    cases h with
    | ask answered resumed => exact ⟨_, _, _, _, answered, resumed, rfl⟩
  · intro run
    obtain ⟨b, s', inner, rest, answered, resumed, rfl⟩ := run
    exact .ask answered resumed

/-- A question that is answered and then done is followed by the questions of its answer. -/
theorem traces_ask_done_iff {q : Q} {s t : σ} {trace : List (Q × σ)} {a : A q} :
    Traces bodies (.ask q s .done) trace a t ↔
      ∃ inner, Traces bodies (bodies q s) inner a t ∧ trace = (q, s) :: inner := by
  simp only [traces_ask_iff, traces_done_iff]
  constructor
  · intro run
    obtain ⟨b, s', inner, rest, answered, ⟨rfl, rfl, rfl⟩, rfl⟩ := run
    exact ⟨inner, answered, by simp⟩
  · intro run
    obtain ⟨inner, answered, rfl⟩ := run
    exact ⟨a, t, inner, [], answered, ⟨rfl, rfl, rfl⟩, by simp⟩

/-- A sequence asks what its first part asks and then what the rest asks from there. -/
theorem traces_bind_iff {r : Resumption A σ α} {next : α → σ → Resumption A σ β} {b : β} {t : σ}
    {trace : List (Q × σ)} : Traces bodies (r.bind next) trace b t ↔
      ∃ a s first rest, Traces bodies r first a s ∧ Traces bodies (next a s) rest b t ∧
        trace = first ++ rest := by
  induction r generalizing trace with
  | done a s =>
      simp only [done_bind, traces_done_iff]
      constructor
      · intro h
        exact ⟨a, s, [], trace, ⟨rfl, rfl, rfl⟩, h, rfl⟩
      · intro run
        obtain ⟨_, _, _, _, ⟨rfl, rfl, rfl⟩, h, rfl⟩ := run
        exact h
  | ask q s resume ih =>
      simp only [ask_bind, traces_ask_iff, ih]
      constructor
      · intro run
        obtain ⟨c, s', inner, _, hc, ⟨a, s'', first, rest, ha, hb, rfl⟩, rfl⟩ := run
        exact ⟨a, s'', _, rest, ⟨c, s', inner, first, hc, ha, rfl⟩, hb, by simp⟩
      · intro run
        obtain ⟨a, s'', _, rest, ⟨c, s', inner, first, hc, ha, rfl⟩, hb, rfl⟩ := run
        exact ⟨c, s', inner, _, hc, ⟨a, s'', first, rest, ha, hb, rfl⟩, by simp⟩

theorem Traces.evaluates {r : Resumption A σ α} {trace : List (Q × σ)} {a : α} {s : σ}
    (h : Traces bodies r trace a s) : Evaluates bodies r a s := by
  induction h with
  | done a s => exact .done a s
  | ask _ _ ihq ihr => exact .ask ihq ihr

/-- Every run has a trace. -/
theorem Evaluates.traces {r : Resumption A σ α} {a : α} {s : σ} (h : Evaluates bodies r a s) :
    ∃ trace, Traces bodies r trace a s := by
  induction h with
  | done a s => exact ⟨[], .done a s⟩
  | ask _ _ ihq ihr =>
      obtain ⟨inner, hq⟩ := ihq
      obtain ⟨rest, hr⟩ := ihr
      exact ⟨_, .ask hq hr⟩

/-- A run has one trace. -/
theorem Traces.unique {r : Resumption A σ α} {trace trace' : List (Q × σ)} {a b : α} {s t : σ}
    (h : Traces bodies r trace a s) (h' : Traces bodies r trace' b t) :
    trace = trace' ∧ a = b ∧ s = t := by
  induction h generalizing t trace' with
  | done a s =>
      obtain ⟨rfl, rfl, rfl⟩ := traces_done_iff.mp h'
      exact ⟨rfl, rfl, rfl⟩
  | ask _ _ ihq ihr =>
      cases h' with
      | ask answered resumed =>
          obtain ⟨rfl, rfl, rfl⟩ := ihq answered
          obtain ⟨rfl, rfl, rfl⟩ := ihr resumed
          exact ⟨rfl, rfl, rfl⟩

end Resumption

end StatementEngine
