import StatementEngine.Resumption.Evaluation

/-!
# Reasoning about all runs at once

**One induction for every property of runs.** To show that every answer has a property it is enough
to look at each body by itself: assume that the question was asked as questions may be asked, assume
of the answers to its own questions what is to be shown, and see that it asks as it may
(`Evaluates.ensures`). `Ensures` is that look at a single body: it has one rule for the end and one
for a question.
-/

namespace StatementEngine

namespace Resumption

variable {Q : Type} {A : Q → Type} {σ α β : Type}

/-- The computation only asks questions where it may. If every answer is as `answers` says then it
can only finish with a result of which `post` holds. -/
def Ensures (asks : Q → σ → Prop) (answers : (q : Q) → σ → A q → σ → Prop) :
    Resumption A σ α → (α → σ → Prop) → Prop
  | .done a s, post => post a s
  | .ask q s resume, post =>
    asks q s ∧ ∀ b s', answers q s b s' → Ensures asks answers (resume b s') post

variable {asks : Q → σ → Prop} {answers : (q : Q) → σ → A q → σ → Prop} {bodies : Bodies A σ}

@[simp] theorem ensures_done {a : α} {s : σ} {post : α → σ → Prop} :
    Ensures asks answers (.done a s) post ↔ post a s := Iff.rfl

@[simp] theorem ensures_ask {q : Q} {s : σ} {resume : A q → σ → Resumption A σ α}
    {post : α → σ → Prop} :
    Ensures asks answers (.ask q s resume) post
      ↔ asks q s ∧ ∀ b s', answers q s b s' → Ensures asks answers (resume b s') post := Iff.rfl

/-- A sequence ensures what its second part ensures after the first. -/
theorem ensures_bind {r : Resumption A σ α} {next : α → σ → Resumption A σ β}
    {post : β → σ → Prop} :
    Ensures asks answers (r.bind next) post
      ↔ Ensures asks answers r fun a s => Ensures asks answers (next a s) post := by
  induction r with
  | done a s => rfl
  | ask q s resume ih =>
    simp only [ask_bind, ensures_ask]
    refine and_congr_right fun _ => ?_
    exact forall_congr' fun b => forall_congr' fun s' => imp_congr_right fun _ => ih b s'

theorem Ensures.mono {r : Resumption A σ α} {post post' : α → σ → Prop}
    (h : Ensures asks answers r post) (le : ∀ a s, post a s → post' a s) :
    Ensures asks answers r post' := by
  induction r with
  | done a s => exact le a s h
  | ask q s resume ih => exact ⟨h.1, fun b s' hb => ih b s' (h.2 b s' hb)⟩

/-- Nothing is promised of a computation that may ask everything. -/
theorem ensures_of_asks (le : ∀ q s, asks q s) (r : Resumption A σ α) :
    Ensures asks answers r fun _ _ => True := by
  induction r with
  | done a s => trivial
  | ask q s resume ih => exact ⟨le q s, fun b s' _ => ih b s'⟩

/-- What only asks where it may only asks where more may be asked. -/
theorem Ensures.mono_asks {asks' : Q → σ → Prop} {r : Resumption A σ α} {post : α → σ → Prop}
    (h : Ensures asks answers r post) (le : ∀ q s, asks q s → asks' q s) :
    Ensures asks' answers r post := by
  induction r with
  | done a s => exact h
  | ask q s resume ih => exact ⟨le q s h.1, fun b s' hb => ih b s' (h.2 b s' hb)⟩

/-- What is ensured with weaker answers is ensured as well. -/
theorem Ensures.and {asks' : Q → σ → Prop} {answers' : (q : Q) → σ → A q → σ → Prop}
    {r : Resumption A σ α} {post post' : α → σ → Prop} (h : Ensures asks answers r post)
    (h' : Ensures asks' answers' r post')
    (le : ∀ q s b s', answers' q s b s' → answers q s b s') :
    Ensures asks' answers' r fun a s => post a s ∧ post' a s := by
  induction r with
  | done a s => exact ⟨h, h'⟩
  | ask q s resume ih =>
    exact ⟨h'.1, fun b s' hb => ih b s' (h.2 b s' (le q s b s' hb)) (h'.2 b s' hb)⟩

/-- What each body ensures, given the same of its questions, holds of every result. -/
theorem Evaluates.ensures
    (each : ∀ q s, asks q s → Ensures asks answers (bodies q s) (answers q s))
    {r : Resumption A σ α} {a : α} {s : σ} (h : Evaluates bodies r a s) :
    ∀ {post : α → σ → Prop}, Ensures asks answers r post → post a s := by
  induction h with
  | done a s => exact fun h => h
  | ask _ _ ihq ihr => exact fun h => ihr (h.2 _ _ (ihq (each _ _ h.1)))

end Resumption

end StatementEngine
