import StatementEngine.Proofs.Run.Trace

/-!
# Two runs side by side

**Two computations in lockstep** (`Resumption.Lockstep`) ask related questions, one after the other;
whenever the answers to two of them are related, they go on in lockstep; and they end with related
results. It is `Resumption.Ensures` for two computations instead of one, and has the same rules.

If the bodies answer related questions in lockstep then computations in lockstep have related
results, and one of them ends exactly if the other one does (`Lockstep.evaluates`,
`Lockstep.evaluates_right`). Whatever question one of them comes to is related to one of the other.
-/

namespace StatementEngine

namespace Resumption

variable {Q : Type} {A : Q → Type} {σ α β γ δ : Type}

/-- The computations only ask questions that are related, and if all answers are related then they
can only end with results that `post` relates. -/
def Lockstep (asks : Q → σ → Q → σ → Prop)
    (answers : (q : Q) → σ → (q' : Q) → σ → A q → σ → A q' → σ → Prop) :
    Resumption A σ α → Resumption A σ β → (α → σ → β → σ → Prop) → Prop
  | .done a s, .done b t, post => post a s b t
  | .ask q s resume, .ask q' s' resume', post =>
    asks q s q' s' ∧ ∀ a t b t', answers q s q' s' a t b t' →
      Lockstep asks answers (resume a t) (resume' b t') post
  | _, _, _ => False

variable {asks : Q → σ → Q → σ → Prop}
  {answers : (q : Q) → σ → (q' : Q) → σ → A q → σ → A q' → σ → Prop}

theorem Lockstep.mono {r : Resumption A σ α} {r' : Resumption A σ β}
    {post post' : α → σ → β → σ → Prop} (h : Lockstep asks answers r r' post)
    (le : ∀ a s b t, post a s b t → post' a s b t) : Lockstep asks answers r r' post' := by
  induction r generalizing r' with
  | done a s =>
      cases r' with
      | done b t => exact le a s b t h
      | ask q' s' resume' => exact h
  | ask q s resume ih =>
      cases r' with
      | done b t => exact h
      | ask q' s' resume' =>
          exact ⟨h.1, fun a t b t' answered => ih a t (h.2 a t b t' answered)⟩

/-- Sequences are in lockstep if their first parts are, and their second parts from there on. -/
theorem Lockstep.bind {r : Resumption A σ α} {r' : Resumption A σ β}
    {next : α → σ → Resumption A σ γ} {next' : β → σ → Resumption A σ δ}
    {post : γ → σ → δ → σ → Prop}
    (h : Lockstep asks answers r r' fun a s b t =>
      Lockstep asks answers (next a s) (next' b t) post) :
    Lockstep asks answers (r.bind next) (r'.bind next') post := by
  induction r generalizing r' with
  | done a s =>
      cases r' with
      | done b t => exact h
      | ask q' s' resume' => exact h.elim
  | ask q s resume ih =>
      cases r' with
      | done b t => exact h.elim
      | ask q' s' resume' =>
          exact ⟨h.1, fun a t b t' answered => ih a t (h.2 a t b t' answered)⟩

/-- A computation is in lockstep with itself if equal questions go together, and their answers only
if they are equal. -/
theorem Lockstep.refl (asked : ∀ q s, asks q s q s)
    (same : ∀ q s a t b t', answers q s q s a t b t' → b = a ∧ t' = t) (r : Resumption A σ α) :
    Lockstep asks answers r r fun a s b t => b = a ∧ t = s := by
  induction r with
  | done a s => exact ⟨rfl, rfl⟩
  | ask q s resume ih =>
      refine ⟨asked q s, fun a t b t' answered => ?_⟩
      obtain ⟨rfl, rfl⟩ := same q s a t b t' answered
      exact ih b t'

/-- What is in lockstep is so the other way round. -/
theorem Lockstep.swap {r : Resumption A σ α} {r' : Resumption A σ β}
    {post : α → σ → β → σ → Prop} (h : Lockstep asks answers r r' post) :
    Lockstep (fun q s q' s' => asks q' s' q s)
      (fun q s q' s' a t b t' => answers q' s' q s b t' a t) r' r fun b t a s => post a s b t := by
  induction r generalizing r' with
  | done a s =>
      cases r' with
      | done b t => exact h
      | ask q' s' resume' => exact h
  | ask q s resume ih =>
      cases r' with
      | done b t => exact h
      | ask q' s' resume' =>
          exact ⟨h.1, fun b t' a t answered => ih a t (h.2 a t b t' answered)⟩

variable {bodies bodies' : Bodies A σ}

/-- If the first of two computations in lockstep ends, so does the second one, and the results are
related. -/
theorem Lockstep.evaluates
    (each : ∀ q s q' s', asks q s q' s' →
      Lockstep asks answers (bodies q s) (bodies' q' s') (answers q s q' s'))
    {r : Resumption A σ α} {a : α} {s : σ} (h : Evaluates bodies r a s) :
    ∀ {β : Type} {r' : Resumption A σ β} {post : α → σ → β → σ → Prop},
      Lockstep asks answers r r' post → ∃ b t, Evaluates bodies' r' b t ∧ post a s b t := by
  induction h with
  | done a s =>
      intro β r' post hr
      cases r' with
      | done b t => exact ⟨b, t, .done b t, hr⟩
      | ask q' s' resume' => exact hr.elim
  | ask _ _ ihq ihr =>
      intro β r' post hr
      cases r' with
      | done b t => exact hr.elim
      | ask q' s' resume' =>
          obtain ⟨b, t, answered, hb⟩ := ihq (each _ _ _ _ hr.1)
          obtain ⟨c, u, resumed, hc⟩ := ihr (hr.2 _ _ _ _ hb)
          exact ⟨c, u, .ask answered resumed, hc⟩

/-- If the second of two computations in lockstep ends, so does the first one, and the results are
related. -/
theorem Lockstep.evaluates_right
    (each : ∀ q s q' s', asks q s q' s' →
      Lockstep asks answers (bodies q s) (bodies' q' s') (answers q s q' s'))
    {r : Resumption A σ α} {r' : Resumption A σ β} {post : α → σ → β → σ → Prop} {b : β} {t : σ}
    (hr : Lockstep asks answers r r' post) (h : Evaluates bodies' r' b t) :
    ∃ a s, Evaluates bodies r a s ∧ post a s b t :=
  Lockstep.evaluates (fun _ _ _ _ asked => (each _ _ _ _ asked).swap) h hr.swap

end Resumption

end StatementEngine
