import StatementEngine.Proofs.Run.Trace
import StatementEngine.Resumption.Induction

/-!
# What a run comes to

**A run is looked at before it has ended.** Whether it ends at all, and what holds of its result,
may depend on the questions that it comes to (`Resumption.Reaches`) and on nothing else.

* `Reaches.asked`: a question that a run comes to is asked as questions may be asked.
* `Evaluates.ensures_of_reached`: a property of results, given something of the questions that the
  run comes to; `Traces.ensures_of_fit` and `Reaches.asked_of_fit` say it of the trace of a run and
  of a run that has not ended.
* `halts_of_rank`: a run ends if every question has a smaller rank than the one it is asked for.

Closed questions are not looked into. What is to be known of them is what holds of their answers.
-/

namespace StatementEngine

namespace Resumption

variable {Q : Type} {A : Q → Type} {σ α β W : Type} {bodies : Bodies A σ} {isOpen : Q → Prop}
variable {asks : Q → σ → Prop} {answers : (q : Q) → σ → A q → σ → Prop}

/-- What a run comes to, it asks if it ends. -/
theorem Reaches.mem_trace {r : Resumption A σ α} {before trace : List (Q × σ)} {q : Q} {s t : σ}
    {a : α} (h : Reaches bodies isOpen r before q s) (ended : Traces bodies r trace a t) :
    (q, s) ∈ trace := by
  induction h generalizing trace t with
  | here q s resume =>
      obtain ⟨_, _, _, _, _, _, rfl⟩ := traces_ask_iff.mp ended
      exact List.mem_cons_self
  | inside _ _ ih =>
      obtain ⟨_, _, _, _, inner, _, rfl⟩ := traces_ask_iff.mp ended
      exact List.mem_cons_of_mem _ (List.mem_append_left _ (ih inner))
  | after answered _ ih =>
      obtain ⟨_, _, _, _, inner, rest, rfl⟩ := traces_ask_iff.mp ended
      obtain ⟨-, rfl, rfl⟩ := answered.unique inner
      exact List.mem_cons_of_mem _ (List.mem_append_right _ (ih rest))

/-- What a run comes to is asked as questions may be asked. -/
theorem Reaches.asked
    (opened : ∀ q s, asks q s → isOpen q → Ensures asks answers (bodies q s) fun _ _ => True)
    (sound : ∀ q s b t, asks q s → Evaluates bodies (bodies q s) b t → answers q s b t)
    {r : Resumption A σ α} {before : List (Q × σ)} {q : Q} {s : σ}
    (h : Reaches bodies isOpen r before q s) :
    ∀ {post : α → σ → Prop}, Ensures asks answers r post → asks q s := by
  induction h with
  | here q s resume => exact fun hr => hr.1
  | inside open? _ ih => exact fun hr => ih (opened _ _ hr.1 open?)
  | after answered _ ih => exact fun hr => ih (hr.2 _ _ (sound _ _ _ _ hr.1 answered.evaluates))

/-- If every body asks only what it may, so does a whole run. -/
theorem Traces.asked
    (each : ∀ q s, asks q s → Ensures asks answers (bodies q s) (answers q s))
    {r : Resumption A σ α} {trace : List (Q × σ)} {a : α} {s : σ} (h : Traces bodies r trace a s) :
    ∀ {post : α → σ → Prop}, Ensures asks answers r post → ∀ p ∈ trace, asks p.1 p.2 := by
  induction h with
  | done a s => exact fun _ _ hp => absurd hp List.not_mem_nil
  | ask answered _ ihq ihr =>
      intro post hr p hp
      have own := each _ _ hr.1
      rcases List.mem_cons.mp hp with rfl | hp
      · exact hr.1
      rcases List.mem_append.mp hp with inside | after
      · exact ihq own p inside
      · exact ihr (hr.2 _ _ (answered.evaluates.ensures each own)) p after

/-- What each body ensures of a question that is fit, given the same of its questions, holds of
the result of a run that only comes to such questions. -/
theorem Evaluates.ensures_of_reached {fit : Q → σ → Prop}
    (opened : ∀ q s, asks q s → isOpen q → fit q s →
      Ensures asks answers (bodies q s) (answers q s))
    (closed : ∀ q s b t, asks q s → ¬ isOpen q → Evaluates bodies (bodies q s) b t →
      answers q s b t)
    {r : Resumption A σ α} {a : α} {s : σ} (h : Evaluates bodies r a s)
    (reached : ∀ before q u, Reaches bodies isOpen r before q u → fit q u) :
    ∀ {post : α → σ → Prop}, Ensures asks answers r post → post a s := by
  induction h with
  | done a s => exact fun hr => hr
  | @ask α q s s' s'' resume b a answered _ ihq ihr =>
      intro post hr
      have hb : answers q s b s' := by
        by_cases hq : isOpen q
        · exact ihq (fun _ _ _ h => reached _ _ _ (.inside hq h))
            (opened q s hr.1 hq (reached _ _ _ (.here q s resume)))
        · exact closed q s b s' hr.1 hq answered
      obtain ⟨trace, traced⟩ := answered.traces
      exact ihr (fun _ _ _ h => reached _ _ _ (.after traced h)) (hr.2 b s' hb)

/-- What each body ensures of a question that is fit, given the same of its questions, holds of the
result of a run that asks only such questions. -/
theorem Traces.ensures_of_fit {fit : Q → σ → Prop}
    (each : ∀ q s, asks q s → fit q s → Ensures asks answers (bodies q s) (answers q s))
    {r : Resumption A σ α} {trace : List (Q × σ)} {a : α} {s : σ} (run : Traces bodies r trace a s)
    (fits : ∀ p ∈ trace, fit p.1 p.2) {post : α → σ → Prop} (h : Ensures asks answers r post) :
    post a s := by
  have reached : ∀ before q u, Reaches bodies (fun _ => True) r before q u → fit q u :=
    fun _ q u found => fits (q, u) (found.mem_trace run)
  refine run.evaluates.ensures_of_reached (fun q s hq _ => each q s hq) ?_ reached h
  exact fun _ _ _ _ _ closed => absurd trivial closed

/-- The same at a question that a run comes to, if the questions before it are fit. -/
theorem Reaches.asked_of_fit {fit : Q → σ → Prop}
    (each : ∀ q s, asks q s → fit q s → Ensures asks answers (bodies q s) (answers q s))
    {r : Resumption A σ α} {before : List (Q × σ)} {q : Q} {s : σ}
    (h : Reaches bodies isOpen r before q s) (fits : ∀ p ∈ before, fit p.1 p.2) :
    ∀ {post : α → σ → Prop}, Ensures asks answers r post → asks q s := by
  induction h with
  | here q s resume => exact fun hr => hr.1
  | inside _ _ ih =>
      obtain ⟨own, inner⟩ := List.forall_mem_cons.mp fits
      exact fun hr => ih inner (each _ _ hr.1 own)
  | after answered _ ih =>
      obtain ⟨own, fits⟩ := List.forall_mem_cons.mp fits
      obtain ⟨inner, rest⟩ := List.forall_mem_append.mp fits
      exact fun hr => ih rest (hr.2 _ _ (answered.ensures_of_fit each inner (each _ _ hr.1 own)))

/-! ## Coming to an end -/

/-- The computation has a result, if the closed questions that it comes to and that may be asked
have. -/
def Halts (bodies : Bodies A σ) (isOpen : Q → Prop) (asks : Q → σ → Prop) (r : Resumption A σ α) :
    Prop :=
  (∀ before q u, Reaches bodies isOpen r before q u → ¬ isOpen q → asks q u →
    ∃ b t, Evaluates bodies (bodies q u) b t) →
  ∃ a t, Evaluates bodies r a t

/-- A computation halts if the questions that it asks itself do. -/
theorem halts_of_asked {asks' : Q → σ → Prop} (le : ∀ q s, asks' q s → asks q s)
    (each : ∀ q s, asks' q s → isOpen q → Halts bodies isOpen asks (bodies q s))
    (sound : ∀ q s b t, asks q s → Evaluates bodies (bodies q s) b t → answers q s b t)
    {r : Resumption A σ α} {post : α → σ → Prop} (h : Ensures asks' answers r post) :
    Halts bodies isOpen asks r := by
  induction r with
  | done a s => exact fun _ => ⟨a, s, .done a s⟩
  | ask q s resume ih =>
      intro closed
      have hq := le q s h.1
      -- the question has an answer, and the computation goes on with it
      obtain ⟨b, t, answered⟩ : ∃ b t, Evaluates bodies (bodies q s) b t := by
        by_cases opened : isOpen q
        · exact each q s h.1 opened fun _ _ _ reached => closed _ _ _ (.inside opened reached)
        · exact closed [] q s (.here q s resume) opened hq
      obtain ⟨trace, traced⟩ := answered.traces
      obtain ⟨a, u, resumed⟩ := ih b t (h.2 b t (sound q s b t hq answered))
        fun _ _ _ reached => closed _ _ _ (.after traced reached)
      exact ⟨a, u, .ask answered resumed⟩

/-- **A measure that every question makes smaller** leads to a result. -/
theorem halts_of_rank {lt : W → W → Prop} (wf : WellFounded lt) {rank : Q → σ → W}
    (smaller : ∀ q s, asks q s → isOpen q →
      Ensures (fun q' s' => asks q' s' ∧ (isOpen q' → lt (rank q' s') (rank q s))) answers
        (bodies q s) fun _ _ => True)
    (sound : ∀ q s b t, asks q s → Evaluates bodies (bodies q s) b t → answers q s b t)
    {r : Resumption A σ α} {post : α → σ → Prop} (h : Ensures asks answers r post) :
    Halts bodies isOpen asks r := by
  refine halts_of_asked (fun _ _ h => h) (fun q s hs hq => ?_) sound h
  -- the induction is on the rank of the question
  generalize hw : rank q s = w
  induction w using wf.induction generalizing q s with
  | _ w ih =>
      subst hw
      refine halts_of_asked (fun _ _ h => h.1) (fun q' s' h' hq' => ?_) sound (smaller q s hs hq)
      exact ih (rank q' s') (h'.2 hq') q' s' h'.1 hq' rfl

end Resumption

end StatementEngine
