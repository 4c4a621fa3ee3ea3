/-!
# Resumptions

**Recursion described first, run afterwards.** A body that needs the answer to another question
does not call itself: it hands out a `Resumption`, which is either finished or names the question
and says how to go on with its answer. A table of bodies (`Bodies`) then ties the knot.

* `Resumption.bind` sequences two of them, so bodies are written with `do`.
* `Resumption.run` answers every question with an explicit stack of frames. It is a loop, so the
  nesting of the questions is bounded by memory and never by a native call stack.
* The state `σ` is threaded through by every constructor: what has happened before a question
  stays, whatever the answer is.

The relation that says what a run computes, with no count of steps, is in
`StatementEngine.Resumption.Evaluation`.
-/

namespace StatementEngine

/-- A computation over a state `σ` that may ask questions `q : Q`, whose answers have type `A q`. -/
inductive Resumption {Q : Type} (A : Q → Type) (σ α : Type) : Type where
  /-- Finished with an answer. -/
  | done (answer : α) (state : σ)
  /-- Waits for the answer to a question asked in a state. -/
  | ask (question : Q) (state : σ) (resume : A question → σ → Resumption A σ α)

namespace Resumption

variable {Q : Type} {A : Q → Type} {σ α β γ : Type}

/-- Goes on with `next` where the computation finishes. -/
def bind : Resumption A σ α → (α → σ → Resumption A σ β) → Resumption A σ β
  | .done a s, next => next a s
  | .ask q s resume, next => .ask q s fun a s => (resume a s).bind next

@[simp] theorem done_bind (a : α) (s : σ) (next : α → σ → Resumption A σ β) :
    (done a s).bind next = next a s := rfl

@[simp] theorem ask_bind (q : Q) (s : σ) (resume : A q → σ → Resumption A σ α)
    (next : α → σ → Resumption A σ β) :
    (ask q s resume).bind next = ask q s fun a s => (resume a s).bind next := rfl

@[simp] theorem bind_done (r : Resumption A σ α) : r.bind done = r := by
  induction r with
  | done a s => rfl
  | ask q s resume ih => simp [ih]

theorem bind_assoc (r : Resumption A σ α) (f : α → σ → Resumption A σ β)
    (g : β → σ → Resumption A σ γ) :
    (r.bind f).bind g = r.bind fun a s => (f a s).bind g := by
  induction r with
  | done a s => rfl
  | ask q s resume ih => simp [ih]

end Resumption

/-- How each question is answered. -/
abbrev Bodies {Q : Type} (A : Q → Type) (σ : Type) : Type :=
  (q : Q) → σ → Resumption A σ (A q)

/-- What the top frame of a stack waits for: an answer, or the result of the whole run. -/
abbrev Wanted {Q : Type} (A : Q → Type) (ω : Type) : Option Q → Type
  | none => ω
  | some q => A q

/-- A stack of suspended computations. Each frame takes what the one above it yields. -/
inductive Frames {Q : Type} (A : Q → Type) (σ ω : Type) : Option Q → Type where
  /-- Nothing is suspended. -/
  | bottom : Frames A σ ω none
  /-- A computation waits for the answer to a question. -/
  | push {q : Q} {w : Option Q} (resume : A q → σ → Resumption A σ (Wanted A ω w))
      (rest : Frames A σ ω w) : Frames A σ ω (some q)

namespace Resumption

variable {Q : Type} {A : Q → Type} {σ ω : Type}

/-- Runs a computation above a stack of suspended ones, in at most the given number of steps. -/
def runOn (bodies : Bodies A σ) :
    Nat → (w : Option Q) → Resumption A σ (Wanted A ω w) → Frames A σ ω w → Option (ω × σ)
  | 0, _, _, _ => none
  | _ + 1, none, .done a s, _ => some (a, s)
  | n + 1, some _, .done a s, .push resume rest => runOn bodies n _ (resume a s) rest
  | n + 1, _, .ask q s resume, frames => runOn bodies n (some q) (bodies q s) (.push resume frames)

/-- The result of a computation that finishes within the given number of steps. -/
def run (bodies : Bodies A σ) (steps : Nat) (r : Resumption A σ ω) : Option (ω × σ) :=
  runOn bodies steps none r .bottom

end Resumption

end StatementEngine
