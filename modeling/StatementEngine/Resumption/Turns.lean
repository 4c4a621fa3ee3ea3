import StatementEngine.Resumption.Basic

/-!
# Running in turns

**A run can be stopped between two steps.** What is left of it is a `Paused` computation, which
holds no state. Whatever happens to the state in the meantime, it goes on from the state that it is
given then, so several computations can share one state and take turns.

A turn ends before a question that its caller wants to stop at, and in any case after a number of
steps, so every turn has an end. A stop changes nothing by itself (`runOn_of_turn_paused`,
`runOn_of_turn_finished`): going on at once is the same as not having stopped.
-/

namespace StatementEngine

/-- A computation between two of its steps. -/
inductive Paused {Q : Type} (A : Q → Type) (σ ω : Type) where
  /-- It has not begun. -/
  | fresh (x : σ → Resumption A σ ω)
  /-- It has an answer to hand to the frames below. -/
  | answering (wanted : Option Q) (answer : Wanted A ω wanted) (frames : Frames A σ ω wanted)
  /-- It has a question. -/
  | asking (question : Q) (wanted : Option Q)
      (resume : A question → σ → Resumption A σ (Wanted A ω wanted)) (frames : Frames A σ ω wanted)

/-- How a turn ends. -/
inductive TurnEnd {Q : Type} (A : Q → Type) (σ ω : Type) where
  | finished (answer : ω)
  | paused (rest : Paused A σ ω)

/-- What a turn comes to. -/
structure Turn {Q : Type} (A : Q → Type) (σ ω : Type) where
  ending : TurnEnd A σ ω
  state : σ
  /-- The steps that the turn did not need. -/
  left : Nat

namespace Resumption

variable {Q : Type} {A : Q → Type} {σ ω : Type}

/-- Runs a computation above a stack of suspended ones for at most a number of steps. Whether the
turn ends before a question may depend on the number of steps that are left. -/
def turn (bodies : Bodies A σ) (stops : Nat → Q → Bool) :
    Nat → (w : Option Q) → Resumption A σ (Wanted A ω w) → Frames A σ ω w → Turn A σ ω
  | 0, w, .done a s, frames => ⟨.paused (.answering w a frames), s, 0⟩
  | 0, w, .ask q s resume, frames => ⟨.paused (.asking q w resume frames), s, 0⟩
  | n + 1, none, .done a s, _ => ⟨.finished a, s, n⟩
  | n + 1, some _, .done a s, .push resume rest => turn bodies stops n _ (resume a s) rest
  | n + 1, w, .ask q s resume, frames =>
    if stops n q then ⟨.paused (.asking q w resume frames), s, n⟩
    else turn bodies stops n (some q) (bodies q s) (.push resume frames)

end Resumption

namespace Paused

variable {Q : Type} {A : Q → Type} {σ ω : Type}

/-- Goes on with a computation for one more turn. A question that has stopped it does not stop it
again. -/
def turn (bodies : Bodies A σ) (stops : Nat → Q → Bool) (steps : Nat) (s : σ) :
    Paused A σ ω → Turn A σ ω
  | fresh x => Resumption.turn bodies stops steps none (x s) .bottom
  | answering w a frames => Resumption.turn bodies stops steps w (.done a s) frames
  | asking q _ resume frames =>
    Resumption.turn bodies stops steps (some q) (bodies q s) (.push resume frames)

/-- Goes on with a computation without stopping. -/
def runOn (bodies : Bodies A σ) (steps : Nat) (s : σ) : Paused A σ ω → Option (ω × σ)
  | fresh x => Resumption.run bodies steps (x s)
  | answering w a frames => Resumption.runOn bodies steps w (.done a s) frames
  | asking q w resume frames => Resumption.runOn bodies steps w (.ask q s resume) frames

end Paused

namespace Resumption

variable {Q : Type} {A : Q → Type} {σ ω : Type} {bodies : Bodies A σ} {stops : Nat → Q → Bool}

/-- A turn that finishes is a run. -/
theorem runOn_of_turn_finished {n left : Nat} {w : Option Q} {r : Resumption A σ (Wanted A ω w)}
    {frames : Frames A σ ω w} {a : ω} {s : σ}
    (h : turn bodies stops n w r frames = ⟨.finished a, s, left⟩) :
    runOn bodies n w r frames = some (a, s) := by
  induction n generalizing w with
  | zero => cases r <;> simp [turn] at h
  | succ n ih =>
    cases r with
    | done b t =>
      cases frames with
      | bottom =>
        simp only [turn, Turn.mk.injEq, TurnEnd.finished.injEq] at h
        obtain ⟨rfl, rfl, rfl⟩ := h
        rfl
      | push resume rest => exact ih h
    | ask q t resume =>
      rw [turn] at h
      rw [runOn]
      split at h
      · simp at h
      · exact ih h

/-- A run through a stop is the run up to it and the run from there on. -/
theorem runOn_of_turn_paused {n left : Nat} {w : Option Q} {r : Resumption A σ (Wanted A ω w)}
    {frames : Frames A σ ω w} {p : Paused A σ ω} {s : σ}
    (h : turn bodies stops n w r frames = ⟨.paused p, s, left⟩) :
    ∃ k, ∀ m, runOn bodies (m + k) w r frames = p.runOn bodies m s := by
  induction n generalizing w with
  | zero =>
    refine ⟨0, fun m => ?_⟩
    cases r <;>
    · simp only [turn, Turn.mk.injEq, TurnEnd.paused.injEq] at h
      obtain ⟨rfl, rfl, rfl⟩ := h
      rfl
  | succ n ih =>
    cases r with
    | done b t =>
      cases frames with
      | bottom => simp [turn] at h
      | push resume rest =>
        obtain ⟨k, hk⟩ := ih h
        exact ⟨k + 1, hk⟩
    | ask q t resume =>
      rw [turn] at h
      split at h
      · simp only [Turn.mk.injEq, TurnEnd.paused.injEq] at h
        obtain ⟨rfl, rfl, rfl⟩ := h
        exact ⟨0, fun m => rfl⟩
      · obtain ⟨k, hk⟩ := ih h
        exact ⟨k + 1, fun m => by rw [← Nat.add_assoc, runOn, hk]⟩

end Resumption

end StatementEngine
