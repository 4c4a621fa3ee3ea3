import StatementEngine.Resumption.Basic

/-!
# What a resumption computes

**A run without counting.** `Evaluates bodies r a s` says that the computation `r` finishes with the
answer `a` in the state `s` when every question is answered by `bodies`. Its rules are those of the
words "ask, wait, go on"; there are no frames and no steps in it.

* `evaluates_bind_iff` takes sequences apart.
* `Evaluates.unique`: a computation has at most one result.
* `run_eq_some_iff`: the loop of `Resumption.run` finds a result exactly if there is one, given
  enough steps.
-/

namespace StatementEngine

namespace Resumption

variable {Q : Type} {A : Q → Type} {σ : Type}

/-- The computation finishes with an answer in a state. -/
inductive Evaluates (bodies : Bodies A σ) : {α : Type} → Resumption A σ α → α → σ → Prop where
  | done {α : Type} (a : α) (s : σ) : Evaluates bodies (.done a s) a s
  | ask {α : Type} {q : Q} {s s' s'' : σ} {resume : A q → σ → Resumption A σ α} {b : A q} {a : α}
      (answered : Evaluates bodies (bodies q s) b s')
      (resumed : Evaluates bodies (resume b s') a s'') :
      Evaluates bodies (.ask q s resume) a s''

variable {bodies : Bodies A σ} {α β ω : Type}

@[simp] theorem evaluates_done_iff {a b : α} {s t : σ} :
    Evaluates bodies (.done a s) b t ↔ b = a ∧ t = s := by
  constructor
  · intro h
    cases h
    exact ⟨rfl, rfl⟩
  · intro run
    obtain ⟨rfl, rfl⟩ := run
    exact .done b t

theorem evaluates_ask_iff {q : Q} {s t : σ} {resume : A q → σ → Resumption A σ α} {a : α} :
    Evaluates bodies (.ask q s resume) a t
      ↔ ∃ b s', Evaluates bodies (bodies q s) b s' ∧ Evaluates bodies (resume b s') a t := by
  constructor
  · intro h
    cases h with
    | ask answered resumed => exact ⟨_, _, answered, resumed⟩
  · intro run
    obtain ⟨b, s', answered, resumed⟩ := run
    exact .ask answered resumed

/-- A question that is answered and then done runs as its answer does. -/
theorem evaluates_ask_done_iff {q : Q} {s t : σ} {a : A q} :
    Evaluates bodies (.ask q s .done) a t ↔ Evaluates bodies (bodies q s) a t := by
  rw [evaluates_ask_iff]
  constructor
  · intro run
    obtain ⟨b, s', hb, h⟩ := run
    obtain ⟨rfl, rfl⟩ := evaluates_done_iff.mp h
    exact hb
  · intro h
    exact ⟨a, t, h, .done _ _⟩

/-- A sequence evaluates if its first part does and the rest does from there. -/
theorem evaluates_bind_iff {r : Resumption A σ α} {next : α → σ → Resumption A σ β} {b : β}
    {t : σ} : Evaluates bodies (r.bind next) b t
      ↔ ∃ a s, Evaluates bodies r a s ∧ Evaluates bodies (next a s) b t := by
  induction r with
  | done a s =>
    simp only [done_bind, evaluates_done_iff]
    constructor
    · intro h
      exact ⟨a, s, ⟨rfl, rfl⟩, h⟩
    · intro run
      obtain ⟨_, _, ⟨rfl, rfl⟩, h⟩ := run
      exact h
  | ask q s resume ih =>
    simp only [ask_bind, evaluates_ask_iff, ih]
    constructor
    · intro run
      obtain ⟨c, s', hc, a, s'', ha, hb⟩ := run
      exact ⟨a, s'', ⟨c, s', hc, ha⟩, hb⟩
    · intro run
      obtain ⟨a, s'', ⟨c, s', hc, ha⟩, hb⟩ := run
      exact ⟨c, s', hc, a, s'', ha, hb⟩

/-- A computation has at most one result. -/
theorem Evaluates.unique {r : Resumption A σ α} {a b : α} {s t : σ}
    (h : Evaluates bodies r a s) (h' : Evaluates bodies r b t) : a = b ∧ s = t := by
  induction h generalizing t with
  | done a s =>
    obtain ⟨rfl, rfl⟩ := evaluates_done_iff.mp h'
    exact ⟨rfl, rfl⟩
  | ask _ _ ihq ihr =>
    obtain ⟨c, s', hc, hr⟩ := evaluates_ask_iff.mp h'
    obtain ⟨rfl, rfl⟩ := ihq hc
    exact ihr hr

/-! ## The loop finds exactly the results -/

/-- Steps spent on a computation lead to what follows it. -/
theorem Evaluates.runOn_bind {r : Resumption A σ α} {a : α} {s : σ} (h : Evaluates bodies r a s)
    {w : Option Q} (next : α → σ → Resumption A σ (Wanted A ω w)) (frames : Frames A σ ω w) :
    ∃ k, ∀ n, runOn bodies (n + k) w (r.bind next) frames = runOn bodies n w (next a s) frames := by
  induction h generalizing w with
  | done a s => exact ⟨0, fun n => rfl⟩
  | @ask α q s s' s'' resume b a _ _ ihq ihr =>
    obtain ⟨k₁, h₁⟩ := ihq (w := some q) (fun c t => .done c t)
      (.push (fun c t => (resume c t).bind next) frames)
    obtain ⟨k₂, h₂⟩ := ihr next frames
    refine ⟨k₂ + 1 + k₁ + 1, fun n => ?_⟩
    have answered := h₁ (n + k₂ + 1)
    rw [bind_done] at answered
    have h : n + (k₂ + 1 + k₁ + 1) = n + k₂ + 1 + k₁ + 1 := by omega
    rw [h, ask_bind, runOn, answered, runOn, h₂]

/-- What the loop finds is the result of the computation on top and of the frames below it. -/
theorem evaluates_of_runOn {n : Nat} {w : Option Q} {r : Resumption A σ (Wanted A ω w)}
    {frames : Frames A σ ω w} {result : ω × σ} (h : runOn bodies n w r frames = some result) :
    ∃ a s m, m ≤ n ∧ Evaluates bodies r a s ∧
      runOn bodies m w (.done a s) frames = some result := by
  induction n using Nat.strongRecOn generalizing w with
  | _ n ih =>
    cases r with
    | done a s => exact ⟨a, s, n, Nat.le_refl n, .done a s, h⟩
    | ask q s resume =>
      cases n with
      | zero => simp [runOn] at h
      | succ n =>
        rw [runOn] at h
        obtain ⟨b, s', m, hm, hb, h⟩ := ih n (Nat.lt_succ_self n) h
        cases m with
        | zero => simp [runOn] at h
        | succ m =>
          rw [runOn] at h
          obtain ⟨a, s'', k, hk, ha, h⟩ := ih m (by omega) h
          exact ⟨a, s'', k, by omega, .ask hb ha, h⟩

/-- More steps do not change what the loop has found. -/
theorem runOn_mono {n m : Nat} (hnm : n ≤ m) {w : Option Q} {r : Resumption A σ (Wanted A ω w)}
    {frames : Frames A σ ω w} {result : ω × σ} (h : runOn bodies n w r frames = some result) :
    runOn bodies m w r frames = some result := by
  induction n generalizing m w with
  | zero => simp [runOn] at h
  | succ n ih =>
    obtain ⟨m, rfl⟩ : ∃ k, m = k + 1 := ⟨m - 1, by omega⟩
    cases r with
    | done a s =>
      cases frames with
      | bottom => simpa [runOn] using h
      | push resume rest =>
        rw [runOn] at h ⊢
        exact ih (by omega) h
    | ask q s resume =>
      rw [runOn] at h ⊢
      exact ih (by omega) h

/-- A run finds a result in some number of steps exactly if the computation has it. -/
theorem run_eq_some_iff {r : Resumption A σ ω} {a : ω} {s : σ} :
    (∃ n, run bodies n r = some (a, s)) ↔ Evaluates bodies r a s := by
  constructor
  · intro run
    obtain ⟨n, h⟩ := run
    obtain ⟨b, t, m, _, hb, h⟩ := evaluates_of_runOn (w := none) h
    cases m with
    | zero => simp [runOn] at h
    | succ m =>
      simp only [runOn, Option.some.injEq, Prod.mk.injEq] at h
      obtain ⟨rfl, rfl⟩ := h
      exact hb
  · intro h
    obtain ⟨k, hk⟩ := h.runOn_bind (w := none) (ω := ω) (fun b t => .done b t) .bottom
    refine ⟨1 + k, ?_⟩
    have h := hk 1
    rw [bind_done] at h
    exact h

end Resumption

end StatementEngine
