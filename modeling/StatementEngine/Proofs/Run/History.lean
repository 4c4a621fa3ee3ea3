import StatementEngine.Proofs.Run.Trace
import StatementEngine.Resumption.Induction

/-!
# The history of a run

**A run is a succession of events.** A question is asked in a state, and later it is answered in
another state (`Resumption.Event`). The events in their order are the history of the run
(`Resumption.Unfolds`), in which the questions of an answer stand between the two events of their
question.

A run that has not ended has a history as well. `Resumption.Shows` says that an event happens, and
which have happened before it. So what holds of every event that is shown holds at every moment of
every run, those without end included.

To prove something of all events it is enough to look at each body by itself (`fits_sound`): assume
that it holds of the question and of the answers to the questions that the body asks, and see that
it holds of these questions and of the answer at the end (`Resumption.Fits`). All of it may depend
on what has happened before.
-/

namespace StatementEngine

namespace Resumption

variable {Q : Type} {A : Q → Type} {σ α β : Type}

/-- Something that happens in a run. -/
inductive Event {Q : Type} (A : Q → Type) (σ : Type) where
  /-- A question is asked in a state. -/
  | asked (q : Q) (s : σ)
  /-- A question that was asked in the first state is answered in the second. -/
  | answered (q : Q) (s : σ) (a : A q) (t : σ)

/-- The state in which something happens. -/
def Event.state : Event A σ → σ
  | .asked _ s => s
  | .answered _ _ _ t => t

/-- The computation finishes with an answer in a state, and this is its history. -/
inductive Unfolds (bodies : Bodies A σ) :
    {α : Type} → Resumption A σ α → List (Event A σ) → α → σ → Prop where
  | done {α : Type} (a : α) (s : σ) : Unfolds bodies (.done a s) [] a s
  | ask {α : Type} {q : Q} {s s' s'' : σ} {resume : A q → σ → Resumption A σ α} {b : A q} {a : α}
      {inner rest : List (Event A σ)} (answered : Unfolds bodies (bodies q s) inner b s')
      (resumed : Unfolds bodies (resume b s') rest a s'') :
      Unfolds bodies (.ask q s resume) (.asked q s :: (inner ++ .answered q s b s' :: rest)) a s''

/-- Something happens in the computation, after something else. -/
inductive Shows (bodies : Bodies A σ) :
    {α : Type} → Resumption A σ α → List (Event A σ) → Event A σ → Prop where
  | asked {α : Type} (q : Q) (s : σ) (resume : A q → σ → Resumption A σ α) :
      Shows bodies (.ask q s resume) [] (.asked q s)
  | inside {α : Type} {q : Q} {s : σ} {resume : A q → σ → Resumption A σ α}
      {past : List (Event A σ)} {e : Event A σ} (shown : Shows bodies (bodies q s) past e) :
      Shows bodies (.ask q s resume) (.asked q s :: past) e
  | answered {α : Type} {q : Q} {s s' : σ} {resume : A q → σ → Resumption A σ α} {b : A q}
      {inner : List (Event A σ)} (unfolds : Unfolds bodies (bodies q s) inner b s') :
      Shows bodies (.ask q s resume) (.asked q s :: inner) (.answered q s b s')
  | after {α : Type} {q : Q} {s s' : σ} {resume : A q → σ → Resumption A σ α} {b : A q}
      {inner past : List (Event A σ)} {e : Event A σ}
      (unfolds : Unfolds bodies (bodies q s) inner b s')
      (shown : Shows bodies (resume b s') past e) :
      Shows bodies (.ask q s resume) (.asked q s :: (inner ++ .answered q s b s' :: past)) e

variable {bodies : Bodies A σ}

theorem unfolds_done_iff {a b : α} {s t : σ} {h : List (Event A σ)} :
    Unfolds bodies (.done a s) h b t ↔ h = [] ∧ b = a ∧ t = s := by
  constructor
  · intro run
    cases run
    exact ⟨rfl, rfl, rfl⟩
  · intro run
    obtain ⟨rfl, rfl, rfl⟩ := run
    exact .done b t

theorem unfolds_ask_iff {q : Q} {s t : σ} {resume : A q → σ → Resumption A σ α}
    {h : List (Event A σ)} {a : α} :
    Unfolds bodies (.ask q s resume) h a t ↔
      ∃ b s' inner rest, Unfolds bodies (bodies q s) inner b s' ∧
        Unfolds bodies (resume b s') rest a t ∧
        h = .asked q s :: (inner ++ .answered q s b s' :: rest) := by
  constructor
  · intro run
    cases run with
    | ask answered resumed => exact ⟨_, _, _, _, answered, resumed, rfl⟩
  · intro run
    obtain ⟨b, s', inner, rest, answered, resumed, rfl⟩ := run
    exact .ask answered resumed

/-- A sequence unfolds as its first part and then as what follows it. -/
theorem unfolds_bind_iff {r : Resumption A σ α} {next : α → σ → Resumption A σ β}
    {h : List (Event A σ)} {b : β} {t : σ} :
    Unfolds bodies (r.bind next) h b t ↔
      ∃ a s first rest, Unfolds bodies r first a s ∧ Unfolds bodies (next a s) rest b t ∧
        h = first ++ rest := by
  induction r generalizing h with
  | done a s =>
      simp only [done_bind, unfolds_done_iff]
      constructor
      · intro run
        exact ⟨a, s, [], h, ⟨rfl, rfl, rfl⟩, run, rfl⟩
      · intro run
        obtain ⟨_, _, _, _, ⟨rfl, rfl, rfl⟩, run, rfl⟩ := run
        exact run
  | ask q s resume ih =>
      simp only [ask_bind, unfolds_ask_iff, ih]
      constructor
      · intro run
        obtain ⟨c, s', inner, _, hc, ⟨a, s'', first, rest, ha, hb, rfl⟩, rfl⟩ := run
        exact ⟨a, s'', _, rest, ⟨c, s', inner, first, hc, ha, rfl⟩, hb, by simp⟩
      · intro run
        obtain ⟨a, s'', _, rest, ⟨c, s', inner, first, hc, ha, rfl⟩, hb, rfl⟩ := run
        exact ⟨c, s', inner, _, hc, ⟨a, s'', first, rest, ha, hb, rfl⟩, by simp⟩

/-- What has a history is a run that ends. -/
theorem Unfolds.evaluates {r : Resumption A σ α} {h : List (Event A σ)} {a : α} {s : σ}
    (run : Unfolds bodies r h a s) : Evaluates bodies r a s := by
  induction run with
  | done a s => exact .done a s
  | ask _ _ ihq ihr => exact .ask ihq ihr

/-- Every run that ends has a history. -/
theorem Evaluates.unfolds {r : Resumption A σ α} {a : α} {s : σ} (run : Evaluates bodies r a s) :
    ∃ h, Unfolds bodies r h a s := by
  induction run with
  | done a s => exact ⟨[], .done a s⟩
  | ask _ _ ihq ihr =>
      obtain ⟨inner, hq⟩ := ihq
      obtain ⟨rest, hr⟩ := ihr
      exact ⟨_, .ask hq hr⟩

/-! ## Earlier events -/

/-- Where an element stands in a list of two parts with an element between them. -/
theorem append_cons_eq_append_cons {γ : Type} {xs ys before after : List γ} {x y : γ}
    (h : xs ++ x :: ys = before ++ y :: after) :
    (∃ rest, xs = before ++ y :: rest) ∨ (before = xs ∧ y = x) ∨
      ∃ first, before = xs ++ x :: first ∧ ys = first ++ y :: after := by
  rcases List.append_eq_append_iff.mp h with ⟨as, hb, hx⟩ | ⟨cs, hx, hy⟩
  · cases as with
    | nil =>
        simp only [List.nil_append, List.cons.injEq, List.append_nil] at hb hx
        exact Or.inr (Or.inl ⟨hb, hx.1.symm⟩)
    | cons z as =>
        simp only [List.cons_append, List.cons.injEq] at hx
        obtain ⟨rfl, hy⟩ := hx
        exact Or.inr (Or.inr ⟨as, hb, hy⟩)
  · cases cs with
    | nil =>
        simp only [List.nil_append, List.cons.injEq, List.append_nil] at hx hy
        exact Or.inr (Or.inl ⟨hx.symm, hy.1⟩)
    | cons z cs =>
        simp only [List.cons_append, List.cons.injEq] at hy
        exact Or.inl ⟨cs, by rw [hx, hy.1]⟩

/-- What is in the history of a run happens in it. -/
theorem Unfolds.shows {r : Resumption A σ α} {h before after : List (Event A σ)} {e : Event A σ}
    {a : α} {s : σ} (run : Unfolds bodies r h a s) (split : h = before ++ e :: after) :
    Shows bodies r before e := by
  induction run generalizing before after with
  | done a s => simp at split
  | @ask α q s s' s'' resume b a inner rest answered resumed ihq ihr =>
      cases before with
      | nil =>
          cases split
          exact .asked q s resume
      | cons first before =>
          obtain ⟨rfl, tails⟩ := List.cons.inj split
          rcases append_cons_eq_append_cons tails with
            ⟨between, h⟩ | ⟨rfl, rfl⟩ | ⟨between, rfl, h⟩
          · exact .inside (ihq h)
          · exact .answered answered
          · exact .after answered (ihr h)

/-- What has happened before something that happens has happened itself. -/
theorem Shows.earlier {r : Resumption A σ α} {past before after : List (Event A σ)}
    {e e' : Event A σ} (shown : Shows bodies r past e)
    (split : past ++ [e] = before ++ e' :: after) : Shows bodies r before e' := by
  induction shown generalizing before after with
  | asked q s resume =>
      cases before with
      | nil =>
          cases split
          exact .asked q s resume
      | cons first before => simp at split
  | @inside α q s resume past e shown ih =>
      cases before with
      | nil =>
          cases split
          exact .asked q s resume
      | cons first before =>
          obtain ⟨rfl, tails⟩ := List.cons.inj split
          exact .inside (ih tails)
  | @answered α q s s' resume b inner unfolds =>
      cases before with
      | nil =>
          cases split
          exact .asked q s resume
      | cons first before =>
          obtain ⟨rfl, tails⟩ := List.cons.inj split
          rcases append_cons_eq_append_cons tails with
            ⟨between, h⟩ | ⟨rfl, rfl⟩ | ⟨between, -, h⟩
          · exact .inside (unfolds.shows h)
          · exact .answered unfolds
          · simp at h
  | @after α q s s' resume b inner past e unfolds shown ih =>
      cases before with
      | nil =>
          cases split
          exact .asked q s resume
      | cons first before =>
          simp only [List.cons_append, List.append_assoc] at split
          obtain ⟨rfl, tails⟩ := List.cons.inj split
          rcases append_cons_eq_append_cons tails with
            ⟨between, h⟩ | ⟨rfl, rfl⟩ | ⟨between, rfl, h⟩
          · exact .inside (unfolds.shows h)
          · exact .answered unfolds
          · exact .after unfolds (ih h)

/-- An answer comes after its question, and what is between them is the history of the answer. -/
theorem Shows.unfolds {r : Resumption A σ α} {past : List (Event A σ)} {q : Q} {s t : σ} {a : A q}
    (shown : Shows bodies r past (.answered q s a t)) :
    ∃ before inner, past = before ++ .asked q s :: inner ∧
      Unfolds bodies (bodies q s) inner a t := by
  generalize whole : Event.answered q s a t = e at shown
  induction shown with
  | asked q s resume => cases whole
  | @inside α q₀ s₀ resume past e shown ih =>
      obtain ⟨before, inner, rfl, run⟩ := ih whole
      exact ⟨.asked q₀ s₀ :: before, inner, rfl, run⟩
  | @answered α q s s' resume b inner unfolds =>
      cases whole
      exact ⟨[], inner, rfl, unfolds⟩
  | @after α q₀ s₀ s' resume b first past e unfolds shown ih =>
      obtain ⟨before, inner, rfl, run⟩ := ih whole
      exact ⟨.asked q₀ s₀ :: (first ++ .answered q₀ s₀ b s' :: before), inner, by simp, run⟩

/-- What has been answered has been asked before. -/
theorem Unfolds.mem_asked {r : Resumption A σ α} {h : List (Event A σ)} {a : α} {s : σ}
    (run : Unfolds bodies r h a s) {q : Q} {u t : σ} {b : A q} (there : .answered q u b t ∈ h) :
    .asked q u ∈ h := by
  obtain ⟨before, after, rfl⟩ := List.append_of_mem there
  obtain ⟨first, inner, rfl, -⟩ := (run.shows rfl).unfolds
  simp

/-- What each body ensures of a question that is fit, given the same of its questions, holds of the
result of a run that asks only such questions. -/
theorem Unfolds.ensures_of_fit {asks fit : Q → σ → Prop} {answers : (q : Q) → σ → A q → σ → Prop}
    (each : ∀ q s, asks q s → fit q s → Ensures asks answers (bodies q s) (answers q s))
    {r : Resumption A σ α} {h : List (Event A σ)} {a : α} {s : σ} (run : Unfolds bodies r h a s)
    (fits : ∀ q u, .asked q u ∈ h → fit q u) {post : α → σ → Prop}
    (hr : Ensures asks answers r post) : post a s := by
  induction run with
  | done a s => exact hr
  | @ask α q s s' s'' resume b a inner rest _ _ ihq ihr =>
      have hb : answers q s b s' := by
        refine ihq (fun q' u there => fits q' u ?_) (each q s hr.1 (fits q s List.mem_cons_self))
        exact List.mem_cons_of_mem _ (List.mem_append_left _ there)
      refine ihr (fun q' u there => fits q' u ?_) (hr.2 b s' hb)
      exact List.mem_cons_of_mem _ (List.mem_append_right _ (List.mem_cons_of_mem _ there))

/-! ## What holds of every event -/

/-- After what has happened, `holds` is true of every question that the computation asks itself, and
`post` of its result, if `holds` is true of the answers to these questions. -/
def Fits (bodies : Bodies A σ) (holds : List (Event A σ) → Event A σ → Prop) :
    Resumption A σ α → List (Event A σ) → (List (Event A σ) → α → σ → Prop) → Prop
  | .done a s, past, post => post past a s
  | .ask q s resume, past, post =>
    holds past (.asked q s) ∧ ∀ inner b s', Unfolds bodies (bodies q s) inner b s' →
      holds (past ++ .asked q s :: inner) (.answered q s b s') →
      Fits bodies holds (resume b s') (past ++ .asked q s :: inner ++ [.answered q s b s']) post

variable {holds : List (Event A σ) → Event A σ → Prop}

theorem Fits.mono {r : Resumption A σ α} {past : List (Event A σ)}
    {post post' : List (Event A σ) → α → σ → Prop} (h : Fits bodies holds r past post)
    (le : ∀ past a s, post past a s → post' past a s) : Fits bodies holds r past post' := by
  induction r generalizing past with
  | done a s => exact le past a s h
  | ask q s resume ih =>
      exact ⟨h.1, fun inner b s' run hb => ih b s' (h.2 inner b s' run hb)⟩

theorem fits_bind {r : Resumption A σ α} {next : α → σ → Resumption A σ β}
    {past : List (Event A σ)} {post : List (Event A σ) → β → σ → Prop}
    (h : Fits bodies holds r past fun past a s => Fits bodies holds (next a s) past post) :
    Fits bodies holds (r.bind next) past post := by
  induction r generalizing past with
  | done a s => exact h
  | ask q s resume ih =>
      exact ⟨h.1, fun inner b s' run hb => ih b s' (h.2 inner b s' run hb)⟩

section Sound
variable (each : ∀ past q s, holds past (.asked q s) →
  Fits bodies holds (bodies q s) (past ++ [.asked q s])
    fun past a t => holds past (.answered q s a t))
include each

/-- What each body sees to holds at the end of every run. -/
theorem Unfolds.fits {r : Resumption A σ α} {h : List (Event A σ)} {a : α} {s : σ}
    (run : Unfolds bodies r h a s) {past : List (Event A σ)}
    {post : List (Event A σ) → α → σ → Prop} (hr : Fits bodies holds r past post) :
    post (past ++ h) a s := by
  induction run generalizing past with
  | done a s =>
      rw [List.append_nil]
      exact hr
  | @ask α q s s' s'' resume b a inner rest answered _ ihq ihr =>
      have hb := ihq (each past q s hr.1)
      rw [List.append_assoc, List.singleton_append] at hb
      have end_ := ihr (hr.2 inner b s' answered hb)
      simpa using end_

/-- **What each body sees to holds of every event.** -/
theorem fits_sound {r : Resumption A σ α} {h : List (Event A σ)} {e : Event A σ}
    (shown : Shows bodies r h e) {past : List (Event A σ)}
    {post : List (Event A σ) → α → σ → Prop} (hr : Fits bodies holds r past post) :
    holds (past ++ h) e := by
  induction shown generalizing past with
  | asked q s resume => simpa using hr.1
  | @inside α q s resume before e shown ih =>
      have inside := ih (each past q s hr.1)
      rwa [List.append_assoc, List.singleton_append] at inside
  | @answered α q s s' resume b inner unfolds =>
      have hb := unfolds.fits each (each past q s hr.1)
      rwa [List.append_assoc, List.singleton_append] at hb
  | @after α q s s' resume b inner before e unfolds shown ih =>
      have hb := unfolds.fits each (each past q s hr.1)
      rw [List.append_assoc, List.singleton_append] at hb
      have later := ih (hr.2 inner b s' unfolds hb)
      simpa using later

end Sound

end Resumption

end StatementEngine
