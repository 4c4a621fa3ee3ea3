import StatementEngine.Engine.Runs

/-!
# Computations with the same ends

**Two computations have the same ends** (`Exec.SameEnds`) if either both of them end or none does,
and what they end with is related. They may start from different states and be of different
kinds. Since a run has one end, nothing is lost by looking for the end of the one from the end of
the other.

A sequence is compared by its parts (`SameEnds.bind`), and computations whose ends are made of the
ends of others by these (`SameEnds.map`).
-/

namespace StatementEngine

variable {config : Config} {ε ε' δ δ' α α' β β' : Type}

/-- From the states either both computations end or none does, and the ends are related. -/
structure Exec.SameEnds (config : Config) (x : Exec ε α) (s : State) (y : Exec δ β) (s' : State)
    (post : Outcome ε α → State → Outcome δ β → State → Prop) : Prop where
  forth : ∀ o t, Runs config x s o t → ∃ o' t', Runs config y s' o' t' ∧ post o t o' t'
  back : ∀ o' t', Runs config y s' o' t' → ∃ o t, Runs config x s o t ∧ post o t o' t'

namespace Exec.SameEnds

variable {s s' u u' : State}

/-- The ends of the first computation may be looked at to relate the ends in another way. -/
theorem mono {x : Exec ε α} {y : Exec δ β}
    {post post' : Outcome ε α → State → Outcome δ β → State → Prop}
    (h : SameEnds config x s y s' post)
    (le : ∀ o t o' t', Runs config x s o t → post o t o' t' → post' o t o' t') :
    SameEnds config x s y s' post' where
  forth o t run := by
    obtain ⟨o', t', run', related⟩ := h.forth o t run
    exact ⟨o', t', run', le o t o' t' run related⟩
  back o' t' run' := by
    obtain ⟨o, t, run, related⟩ := h.back o' t' run'
    exact ⟨o, t, run, le o t o' t' run related⟩

/-- Computations that run alike have the same ends as each other. -/
theorem congr {x x' : Exec ε α} {y y' : Exec δ β}
    {post : Outcome ε α → State → Outcome δ β → State → Prop}
    (h : SameEnds config x s y s' post)
    (hx : ∀ o t, Runs config x' u o t ↔ Runs config x s o t)
    (hy : ∀ o t, Runs config y' u' o t ↔ Runs config y s' o t) :
    SameEnds config x' u y' u' post where
  forth o t run := by
    obtain ⟨o', t', run', related⟩ := h.forth o t ((hx o t).mp run)
    exact ⟨o', t', (hy o' t').mpr run', related⟩
  back o' t' run' := by
    obtain ⟨o, t, run, related⟩ := h.back o' t' ((hy o' t').mp run')
    exact ⟨o, t, (hx o t).mpr run, related⟩

/-- Ends that are made of ends. -/
theorem map {x : Exec ε α} {y : Exec δ β} {x' : Exec ε' α'} {y' : Exec δ' β'}
    {f : Outcome ε α → Outcome ε' α'} {g : Outcome δ β → Outcome δ' β'}
    {post : Outcome ε α → State → Outcome δ β → State → Prop}
    {post' : Outcome ε' α' → State → Outcome δ' β' → State → Prop}
    (h : SameEnds config x s y s' post)
    (hx : ∀ o t, Runs config x' u o t ↔ ∃ r, Runs config x s r t ∧ o = f r)
    (hy : ∀ o t, Runs config y' u' o t ↔ ∃ r, Runs config y s' r t ∧ o = g r)
    (le : ∀ r t r' t', post r t r' t' → post' (f r) t (g r') t') :
    SameEnds config x' u y' u' post' where
  forth o t run := by
    obtain ⟨r, inner, rfl⟩ := (hx o t).mp run
    obtain ⟨r', t', run', related⟩ := h.forth r t inner
    exact ⟨g r', t', (hy _ t').mpr ⟨r', run', rfl⟩, le r t r' t' related⟩
  back o' t' run' := by
    obtain ⟨r', inner, rfl⟩ := (hy o' t').mp run'
    obtain ⟨r, t, run, related⟩ := h.back r' t' inner
    exact ⟨f r, t, (hx _ t).mpr ⟨r, run, rfl⟩, le r t r' t' related⟩

/-- Sequences have the same ends if their first parts have the same outcome, and their second parts
the same ends from there on. -/
theorem bind {x y : Exec ε α} {f : α → Exec ε β} {g : α → Exec ε β'} {R : State → State → Prop}
    {post : Outcome ε β → State → Outcome ε β' → State → Prop}
    (h : SameEnds config x s y s' fun o t o' t' => o' = o ∧ R t t')
    (ok : ∀ a t t', Runs config x s (.ok a) t → R t t' → SameEnds config (f a) t (g a) t' post)
    (raised : ∀ e t t', Runs config x s (.raised e) t → R t t' →
      post (.raised e) t (.raised e) t')
    (panicked : ∀ m t t', Runs config x s (.panicked m) t → R t t' →
      post (.panicked m) t (.panicked m) t') :
    SameEnds config (x >>= f) s (y >>= g) s' post where
  forth o t run := by
    rcases runs_bind_iff.mp run with ⟨a, u, hx, hf⟩ | ⟨e, hx, rfl⟩ | ⟨m, hx, rfl⟩
    · obtain ⟨_, u', hy, rfl, related⟩ := h.forth _ _ hx
      obtain ⟨o', t', hg, ended⟩ := (ok a u u' hx related).forth o t hf
      exact ⟨o', t', runs_bind_iff.mpr (Or.inl ⟨a, u', hy, hg⟩), ended⟩
    · obtain ⟨_, t', hy, rfl, related⟩ := h.forth _ _ hx
      exact ⟨_, t', runs_bind_iff.mpr (Or.inr (Or.inl ⟨e, hy, rfl⟩)), raised e t t' hx related⟩
    · obtain ⟨_, t', hy, rfl, related⟩ := h.forth _ _ hx
      exact ⟨_, t', runs_bind_iff.mpr (Or.inr (Or.inr ⟨m, hy, rfl⟩)), panicked m t t' hx related⟩
  back o' t' run' := by
    rcases runs_bind_iff.mp run' with ⟨a, u', hy, hg⟩ | ⟨e, hy, rfl⟩ | ⟨m, hy, rfl⟩
    · obtain ⟨_, u, hx, rfl, related⟩ := h.back _ _ hy
      obtain ⟨o, t, hf, ended⟩ := (ok a u u' hx related).back o' t' hg
      exact ⟨o, t, runs_bind_iff.mpr (Or.inl ⟨a, u, hx, hf⟩), ended⟩
    · obtain ⟨_, t, hx, rfl, related⟩ := h.back _ _ hy
      exact ⟨_, t, runs_bind_iff.mpr (Or.inr (Or.inl ⟨e, hx, rfl⟩)), raised e t t' hx related⟩
    · obtain ⟨_, t, hx, rfl, related⟩ := h.back _ _ hy
      exact ⟨_, t, runs_bind_iff.mpr (Or.inr (Or.inr ⟨m, hx, rfl⟩)), panicked m t t' hx related⟩

end Exec.SameEnds

end StatementEngine
