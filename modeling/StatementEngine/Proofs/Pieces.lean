import StatementEngine.Proofs.CallBoundary
import StatementEngine.Proofs.Frame
import StatementEngine.Proofs.Run.Asked

/-!
# Scripts in pieces

**A host may feed a script piece by piece.** Running the pieces one after the other in the same
scope is running them as one script, from every state and whatever happens on the way: the first
piece that fails or returns ends the script. The one difference is that a piece does not know the
value of what ran before it, so the host has to keep it for a piece without a value of its own
(`Execution.following`). For blocks the same holds with any signal in the place of a return
(`Completion.following`).

A piece is entered and left like a call, and the next one is entered at the same depth: that a run
leaves the calls that it enters is what makes the depth fit.

The main result is `pieces_alike`.
-/

namespace StatementEngine

/-! ## One after the other -/

/-- The outcome with its value changed. -/
def Outcome.mapValue (f : α → β) : Outcome ε α → Outcome ε β
  | .ok a => .ok (f a)
  | .raised e => .raised e
  | .panicked m => .panicked m

theorem Outcome.mapValue_mapValue (f : α → β) (g : β → γ) (o : Outcome ε α) :
    (o.mapValue f).mapValue g = o.mapValue fun a => g (f a) := by
  cases o <;> rfl

/-- What has no value has none afterwards. -/
theorem Outcome.mapValue_fails {f : α → β} {o : Outcome ε α} (fails : ∀ a, o ≠ .ok a) (b : β) :
    o.mapValue f ≠ .ok b := by
  cases o with
  | ok a => exact absurd rfl (fails a)
  | raised e | panicked m => simp [mapValue]

/-- The end of a block that ran after another one. -/
def Completion.following (c first : Completion) : Completion :=
  { c with value := c.value.or first.value }

/-- The end of a script that ran after another one. What it returns is its value, whatever came
before. -/
def Execution.following (x first : Execution) : Execution :=
  if x.signal.isNone then { x with value := x.value.or first.value } else x

/-- Whether another script may follow. -/
def Execution.isNormal (x : Execution) : Bool := x.signal.isNone

variable {config : Config} {scope : ScopeId} {cx : Context} {s t : State} {ε α : Type}

/-- A computation goes on with a value, or its other end is the end. -/
theorem runs_bind_or_iff {β : Type} {x : Exec ε α} {f : α → Exec ε β} {o : Outcome ε β}
    (g : α → β) : Runs config (x >>= f) s o t ↔
      (∃ a u, Runs config x s (.ok a) u ∧ Runs config (f a) u o t) ∨
      ∃ q, Runs config x s q t ∧ (∀ a, q ≠ .ok a) ∧ o = q.mapValue g := by
  rw [runs_bind_iff]
  refine or_congr_right ?_
  constructor
  · rintro (⟨e, he, rfl⟩ | ⟨m, hm, rfl⟩)
    · exact ⟨_, he, by simp, rfl⟩
    · exact ⟨_, hm, by simp, rfl⟩
  · rintro ⟨q, hq, fails, rfl⟩
    cases q with
    | ok a => exact absurd rfl (fails a)
    | raised e => exact Or.inl ⟨e, hq, rfl⟩
    | panicked m => exact Or.inr ⟨m, hq, rfl⟩

/-- A computation goes on asking with a value, or with its other end nothing more is asked. -/
theorem asks_bind_or_iff {β : Type} {x : Exec ε α} {f : α → Exec ε β} {o : Outcome ε β}
    {asked : Questions} (g : α → β) : Asks config (x >>= f) s asked o t ↔
      (∃ a u first rest, Asks config x s first (.ok a) u ∧ Asks config (f a) u rest o t ∧
        asked = first ++ rest) ∨
      ∃ q, Asks config x s asked q t ∧ (∀ a, q ≠ .ok a) ∧ o = q.mapValue g := by
  rw [asks_bind_iff]
  refine or_congr_right ?_
  constructor
  · rintro (⟨e, he, rfl⟩ | ⟨m, hm, rfl⟩)
    · exact ⟨_, he, by simp, rfl⟩
    · exact ⟨_, hm, by simp, rfl⟩
  · rintro ⟨q, hq, fails, rfl⟩
    cases q with
    | ok a => exact absurd rfl (fails a)
    | raised e => exact Or.inl ⟨e, hq, rfl⟩
    | panicked m => exact Or.inr ⟨m, hq, rfl⟩

namespace Exec

/-- Runs a computation, and after a normal end another one; `after` says what both have ended as. -/
def andThen (normal : α → Bool) (after : α → α → α) (x y : Exec ε α) : Exec ε α := do
  let first ← x
  if normal first then
    let last ← y
    pure (after last first)
  else pure first

/-- Blocks one after the other. -/
def blocks (scope : ScopeId) (cx : Context) (first : Block) (rest : List Block) :
    Exec EngineError Completion :=
  rest.foldl (fun x b => x.andThen Completion.isNormal Completion.following (runBlock b scope cx))
    (runBlock first scope cx)

/-- Scripts one after the other. -/
def scripts (config : Config) (scope : ScopeId) (first : Block) (rest : List Block) :
    Exec EngineError Execution :=
  rest.foldl (fun x b => x.andThen Execution.isNormal Execution.following (runScript config b scope))
    (runScript config first scope)

variable {normal : α → Bool} {after : α → α → α} {x x' y : Exec ε α}

/-- The first part is all there is, or it ends normally and the second part follows. -/
theorem runs_andThen_iff {o : Outcome ε α} :
    Runs config (x.andThen normal after y) s o t ↔
      (Runs config x s o t ∧ ∀ a, o = .ok a → normal a = false) ∨
      ∃ a u p, Runs config x s (.ok a) u ∧ normal a = true ∧ Runs config y u p t ∧
        o = p.mapValue (after · a) := by
  unfold andThen
  rw [runs_bind_iff]
  constructor
  · intro run
    rcases run with ⟨a, u, ha, h⟩ | ⟨e, he, rfl⟩ | ⟨m, hm, rfl⟩
    · split at h
      · next goesOn =>
          rcases runs_bind_iff.mp h with ⟨b, u', hb, h⟩ | ⟨e, he, rfl⟩ | ⟨m, hm, rfl⟩
          · obtain ⟨rfl, rfl⟩ := runs_pure_iff.mp h
            exact Or.inr ⟨a, u, _, ha, goesOn, hb, rfl⟩
          · exact Or.inr ⟨a, u, _, ha, goesOn, he, rfl⟩
          · exact Or.inr ⟨a, u, _, ha, goesOn, hm, rfl⟩
      · next stops =>
          obtain ⟨rfl, rfl⟩ := runs_pure_iff.mp h
          refine Or.inl ⟨ha, fun b hb => ?_⟩
          cases hb
          simpa using stops
    · exact Or.inl ⟨he, fun a ha => by cases ha⟩
    · exact Or.inl ⟨hm, fun a ha => by cases ha⟩
  · intro run
    rcases run with ⟨run, stops⟩ | ⟨a, u, p, ha, goesOn, hp, rfl⟩
    · cases o with
      | ok a => exact Or.inl ⟨a, t, run, by simp [stops a rfl]⟩
      | raised e => exact Or.inr (Or.inl ⟨e, run, rfl⟩)
      | panicked m => exact Or.inr (Or.inr ⟨m, run, rfl⟩)
    · refine Or.inl ⟨a, u, ha, ?_⟩
      rw [if_pos goesOn, runs_bind_iff]
      cases p with
      | ok b => exact Or.inl ⟨b, t, hp, runs_pure_iff.mpr ⟨rfl, rfl⟩⟩
      | raised e => exact Or.inr (Or.inl ⟨e, hp, rfl⟩)
      | panicked m => exact Or.inr (Or.inr ⟨m, hp, rfl⟩)

theorem Alike.andThen (h : x.Alike config x') (y : Exec ε α) :
    (x.andThen normal after y).Alike config (x'.andThen normal after y) :=
  h.bind_left

/-- Computations that run alike may stand at the start of a sequence. -/
theorem Alike.foldl_andThen (run : Block → Exec ε α) (rest : List Block)
    (h : x.Alike config x') :
    (rest.foldl (fun x b => x.andThen normal after (run b)) x).Alike config
      (rest.foldl (fun x b => x.andThen normal after (run b)) x') := by
  induction rest generalizing x x' with
  | nil => exact h
  | cons b rest ih => exact ih (h.andThen (run b))

/-- If two parts run one after the other, so do any number of pieces. -/
theorem alike_pieces (run : Block → Exec ε α)
    (two : ∀ a b, (run (a ++ b)).Alike config ((run a).andThen normal after (run b)))
    (first : Block) (rest : List Block) :
    (run (first ++ rest.flatten)).Alike config
      (rest.foldl (fun x b => x.andThen normal after (run b)) (run first)) := by
  induction rest generalizing first with
  | nil => simpa using Alike.refl (run first)
  | cons b rest ih =>
      have whole := ih (first ++ b)
      rw [List.append_assoc] at whole
      exact whole.trans (.foldl_andThen run rest (two first b))

/-! ## Blocks -/

/-- What has been the value so far only shows where the statements have none. -/
theorem runFrom_last (body : Block) (last : Option Value) :
    runFrom scope cx body last = (do
      let c ← runFrom scope cx body none
      pure { c with value := c.value.or last }) := by
  induction body generalizing last with
  | nil => simp [runFrom]
  | cons stmt rest ih =>
      simp only [runFrom, bind_assoc, Option.or_none]
      refine congrArg _ (funext fun _ => congrArg _ (funext fun c => ?_))
      split
      · rw [ih (c.value.or last), ih c.value, bind_assoc]
        simp [Option.or_assoc]
      · simp

/-- A list of two parts runs its first part, and its second part after a normal end. -/
theorem runFrom_append (a b : Block) (last : Option Value) :
    runFrom scope cx (a ++ b) last = (do
      let c ← runFrom scope cx a last
      if c.isNormal then runFrom scope cx b c.value else pure c) := by
  induction a generalizing last with
  | nil => simp [runFrom, Completion.isNormal, Signal.isNone]
  | cons stmt rest ih =>
      simp only [List.cons_append, runFrom, bind_assoc]
      refine congrArg _ (funext fun _ => congrArg _ (funext fun c => ?_))
      split
      · exact ih _
      · next signal =>
          have stays : (⟨c.value.or last, c.signal⟩ : Completion).isNormal = false := by
            simpa [Completion.isNormal] using signal
          simp [stays]

/-- A block of two parts runs as its parts do. -/
theorem runBlock_append_alike (a b : Block) :
    (runBlock (a ++ b) scope cx).Alike config
      ((runBlock a scope cx).andThen Completion.isNormal Completion.following
        (runBlock b scope cx)) := by
  refine (alike_runBlock _ _ _).trans ((Alike.of_eq (runFrom_append a b none)).trans ?_)
  refine (alike_runBlock a scope cx).symm.bind fun first => ?_
  split
  · rw [runFrom_last]
    exact (alike_runBlock b scope cx).symm.bind_left
  · exact .refl _

end Exec

/-! ## Scripts -/

/-- A script that ends normally has statements that do. -/
theorem Outcome.asScript_eq_normal_iff {b : Outcome EngineError Completion} {v : Option Value} :
    b.asScript = .ok ⟨v, .none⟩ ↔ b = .ok ⟨v, .none⟩ := by
  match b with
  | .ok ⟨_, .none⟩ => simp [asScript]
  | .ok ⟨_, .returned vs⟩ => simp [asScript]
  | .ok ⟨_, .thrown v p⟩ => simp [asScript]
  | .ok ⟨_, .breakLoop⟩ | .ok ⟨_, .continueLoop⟩ => simp [asScript]
  | .raised e => simp [asScript]
  | .panicked m => simp [asScript]

/-- The value kept for the statements is the value kept for the script. -/
theorem Outcome.asScript_after (b : Outcome EngineError Completion) (v : Option Value) :
    (b.mapValue (·.following ⟨v, .none⟩)).asScript = b.asScript.mapValue (·.following ⟨v, .none⟩) := by
  match b with
  | .ok ⟨_, .none⟩ => rfl
  | .ok ⟨_, .returned vs⟩ => rfl
  | .ok ⟨_, .thrown v p⟩ => rfl
  | .ok ⟨_, .breakLoop⟩ | .ok ⟨_, .continueLoop⟩ => rfl
  | .raised e => rfl
  | .panicked m => rfl

/-- A normal end is told by its value. -/
theorem Completion.eq_of_isNormal {c : Completion} (h : c.isNormal = true) :
    c = ⟨c.value, .none⟩ := by
  obtain ⟨v, signal⟩ := c
  cases signal with
  | none => rfl
  | returned vs | thrown v p | breakLoop | continueLoop => cases h

theorem Execution.eq_of_isNormal {x : Execution} (h : x.isNormal = true) :
    x = ⟨x.value, .none⟩ := by
  obtain ⟨v, signal⟩ := x
  cases signal with
  | none => rfl
  | returned vs | thrown v p | breakLoop | continueLoop => cases h

/-- The call that a block runs in is as deep after the block as before. -/
theorem callDepth_of_runs_block {body : Block} {b : Outcome EngineError Completion}
    (h : Runs config (Exec.runBlock body scope cx) s b t) : t.callDepth = s.callDepth :=
  (kept_of_answer h).callDepth

/-- A script that is entered where the last one was left goes on in the same call. -/
theorem runs_runScript_left_iff {body : Block} {o : Outcome EngineError Execution}
    (depth : t.callDepth = s.callDepth + 1) (below : ∀ max ∈ config.maxCallDepth, s.callDepth < max)
    {u : State} :
    Runs config (Exec.runScript config body scope) { t with callDepth := t.callDepth - 1 } o u ↔
      ∃ b w, Runs config (Exec.runBlock body scope .function) t b w ∧ o = b.asScript ∧
        u = { w with callDepth := w.callDepth - 1 } := by
  have again : { t with callDepth := s.callDepth + 1 } = t := by rw [← depth]
  simp only [runs_runScript_iff, depth, Nat.add_sub_cancel, again]
  constructor
  · intro run
    rcases run with ⟨max, hmax, reached, -⟩ | ⟨-, run⟩
    · exact absurd (below max hmax) (Nat.not_lt_of_le reached)
    · exact run
  · exact fun run => Or.inr ⟨below, run⟩

/-- A script of two parts runs as its parts do. -/
theorem runScript_append_alike (a b : Block) :
    (Exec.runScript config (a ++ b) scope).Alike config
      ((Exec.runScript config a scope).andThen Execution.isNormal Execution.following
        (Exec.runScript config b scope)) := by
  intro s o t
  rw [Exec.runs_andThen_iff, runs_runScript_iff]
  simp only [Exec.runBlock_append_alike a b _ _ _, Exec.runs_andThen_iff]
  constructor
  · intro run
    rcases run with ⟨max, hmax, reached, rfl, rfl⟩ |
      ⟨below, c, u, ⟨hc, stops⟩ | ⟨first, u', p, hfirst, normal, hp, rfl⟩, rfl, rfl⟩
    · refine Or.inl ⟨runs_runScript_iff.mpr (Or.inl ⟨max, hmax, reached, rfl, rfl⟩), ?_⟩
      exact fun x hx => by cases hx
    · refine Or.inl ⟨runs_runScript_iff.mpr (Or.inr ⟨below, c, u, hc, rfl, rfl⟩), ?_⟩
      intro x hx
      cases normal : x.isNormal with
      | false => rfl
      | true =>
          rw [Execution.eq_of_isNormal normal, Outcome.asScript_eq_normal_iff] at hx
          cases stops _ hx
    · rw [Completion.eq_of_isNormal normal] at hfirst ⊢
      have depth := callDepth_of_runs_block hfirst
      refine Or.inr ⟨⟨first.value, .none⟩, _, p.asScript,
        runs_runScript_iff.mpr (Or.inr ⟨below, _, _, hfirst, rfl, rfl⟩), rfl, ?_, ?_⟩
      · exact (runs_runScript_left_iff depth below).mpr ⟨p, u, hp, rfl, rfl⟩
      · exact Outcome.asScript_after p first.value
  · intro run
    rcases run with ⟨run, stops⟩ | ⟨x, u, p, hx, normal, hp, rfl⟩
    · rcases runs_runScript_iff.mp run with refused | ⟨below, c, u, hc, rfl, rfl⟩
      · exact Or.inl refused
      · refine Or.inr ⟨below, c, u, Or.inl ⟨hc, fun first hfirst => ?_⟩, rfl, rfl⟩
        cases normal : first.isNormal with
        | false => rfl
        | true =>
            rw [Completion.eq_of_isNormal normal] at hfirst
            cases stops _ (Outcome.asScript_eq_normal_iff.mpr hfirst)
    · rw [Execution.eq_of_isNormal normal] at hx ⊢
      rcases runs_runScript_iff.mp hx with ⟨max, -, -, h, -⟩ | ⟨below, c, u', hc, h, rfl⟩
      · cases h
      · rw [Outcome.asScript_eq_normal_iff.mp h.symm] at hc
        obtain ⟨q, w, hq, rfl, rfl⟩ :=
          (runs_runScript_left_iff (callDepth_of_runs_block hc) below).mp hp
        exact Or.inr ⟨below, _, w, Or.inr ⟨_, u', q, hc, rfl, hq, rfl⟩,
          (Outcome.asScript_after q x.value).symm, rfl⟩

/-- **A script may be fed in pieces.** From every state and with every outcome, a script of two parts
runs as its parts do, one after the other in the same scope: if the first one does not end normally
then it has the last word, and a second one that ends normally without a value leaves the value of
the first. The same holds for a block, in every context; and so a script or a block that is cut into
any number of pieces runs as the pieces do. -/
theorem pieces_alike (config : Config) (scope : ScopeId) :
    (∀ a b, (Exec.runScript config (a ++ b) scope).Alike config
      ((Exec.runScript config a scope).andThen Execution.isNormal Execution.following
        (Exec.runScript config b scope))) ∧
    (∀ cx a b, (Exec.runBlock (a ++ b) scope cx).Alike config
      ((Exec.runBlock a scope cx).andThen Completion.isNormal Completion.following
        (Exec.runBlock b scope cx))) ∧
    (∀ first rest, (Exec.runScript config (first ++ rest.flatten) scope).Alike config
      (Exec.scripts config scope first rest)) ∧
    ∀ cx first rest, (Exec.runBlock (first ++ rest.flatten) scope cx).Alike config
      (Exec.blocks scope cx first rest) := by
  refine ⟨runScript_append_alike, fun cx => Exec.runBlock_append_alike, ?_, fun cx => ?_⟩
  · exact Exec.alike_pieces (Exec.runScript config · scope) runScript_append_alike
  · exact Exec.alike_pieces (Exec.runBlock · scope cx) Exec.runBlock_append_alike

end StatementEngine
