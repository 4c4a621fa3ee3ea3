import StatementEngine.Engine.Runs
import StatementEngine.Resumption.Induction

/-!
# Contracts

A `Contract` says when each question of the engine may be asked and what is promised of its answer.
It is **honored** if the body written for a question that may be asked keeps the promise and asks
only what it may, as long as what it asks is answered as promised; then every run keeps the contract
(`Contract.Honored.answer`).

Computations are checked against a contract with the judgment `Exec.Meets`: from a state in which an
invariant holds the computation can only end in such a state again, with a value or an error of a
given kind. There is one rule for each way of building a computation, so a check follows the text
of the body and never mentions states in between.

A panic of the host is not an outcome that a contract says anything about, except that the invariant
holds of the state it leaves.
-/

namespace StatementEngine

/-- When a question may be asked, and what is promised of its answer. -/
structure Contract where
  requires : Request → State → Prop
  promises : (q : Request) → State → Answer q → State → Prop

/-- The value or the error is of a given kind. -/
def Outcome.Within (ok : α → Prop) (bad : ε → Prop) : Outcome ε α → Prop
  | .ok a => ok a
  | .raised e => bad e
  | .panicked _ => True

theorem Outcome.Within.mono {ok ok' : α → Prop} {bad bad' : ε → Prop} {o : Outcome ε α}
    (h : o.Within ok bad) (hok : ∀ a, ok a → ok' a) (hbad : ∀ e, bad e → bad' e) :
    o.Within ok' bad' := by
  cases o with
  | ok a => exact hok a h
  | raised e => exact hbad e h
  | panicked m => trivial

/-- There are bounds that every outcome is within. -/
theorem Outcome.within_true (o : Outcome ε α) : o.Within (fun _ => True) (fun _ => True) := by
  cases o <;> trivial

/-- Every body keeps the contract, given that its questions are answered in keeping with it. -/
def Contract.Honored (config : Config) (A : Contract) : Prop :=
  ∀ q s, A.requires q s →
    Resumption.Ensures A.requires A.promises (Interpreter.bodies config q s) (A.promises q s)

/-- The promises of a contract that is honored hold of every answer. -/
theorem Contract.Honored.answer {config : Config} {A : Contract} (hA : A.Honored config)
    {q : Request} {s t : State} {a : Answer q} (hq : A.requires q s)
    (h : Resumption.Evaluates (Interpreter.bodies config) (Interpreter.bodies config q s) a t) :
    A.promises q s a t :=
  h.ensures hA (hA q s hq)

/-- Two contracts at the same time. -/
def Contract.and (A B : Contract) : Contract where
  requires q s := A.requires q s ∧ B.requires q s
  promises q s a t := A.promises q s a t ∧ B.promises q s a t

/-- To check a second contract, the promises of one that is honored can be relied on. -/
theorem Contract.Honored.and {config : Config} {A B : Contract} (hA : A.Honored config)
    (hB : ∀ q s, (A.and B).requires q s → Resumption.Ensures (A.and B).requires (A.and B).promises
      (Interpreter.bodies config q s) (B.promises q s)) : (A.and B).Honored config := by
  intro q s hq
  exact (hA q s hq.1).and (hB q s hq) fun _ _ _ _ h => h.1

/-- Under the invariant a question may be asked, and its answers are within bounds. -/
def Contract.Grants (A : Contract) (I : State → Prop) (q : Request) (bounds : Answer q → Prop) :
    Prop :=
  ∀ s, I s → A.requires q s ∧ ∀ a t, A.promises q s a t → I t ∧ bounds a

namespace Exec

/-- From a state with the invariant `I` the computation asks only what it may. If its questions are
answered as the contract says then it can only end in such a state again, and its outcome is within
bounds. -/
def Meets (A : Contract) (I : State → Prop) (ok : α → Prop) (bad : ε → Prop) (x : Exec ε α) :
    Prop :=
  ∀ s, I s → Resumption.Ensures A.requires A.promises (x s) fun o t => I t ∧ o.Within ok bad

variable {A : Contract} {I J : State → Prop} {α β ε δ κ : Type}

/-- What a computation meets holds of its runs. -/
theorem Meets.runs {config : Config} {ok : α → Prop} {bad : ε → Prop} {x : Exec ε α}
    (hx : Meets A I ok bad x) (hA : A.Honored config) {s t : State} {o : Outcome ε α} (hs : I s)
    (h : Runs config x s o t) : I t ∧ o.Within ok bad :=
  Resumption.Evaluates.ensures hA h (hx s hs)

theorem Meets.mono {ok ok' : α → Prop} {bad bad' : ε → Prop} {x : Exec ε α}
    (hx : Meets A I ok bad x) (hok : ∀ a, ok a → ok' a) (hbad : ∀ e, bad e → bad' e) :
    Meets A I ok' bad' x := by
  intro s hs
  exact (hx s hs).mono fun _ _ h => ⟨h.1, h.2.mono hok hbad⟩

/-! ## Steps -/

theorem meets_pure {ok : α → Prop} {bad : ε → Prop} {a : α} (h : ok a) :
    Meets A I ok bad (pure a) :=
  fun _ hs => ⟨hs, h⟩

theorem meets_raise {ok : α → Prop} {bad : ε → Prop} {e : ε} (h : bad e) :
    Meets A I ok bad (raise e : Exec ε α) :=
  fun _ hs => ⟨hs, h⟩

theorem meets_panic {ok : α → Prop} {bad : ε → Prop} {m : String} :
    Meets A I ok bad (panic m : Exec ε α) :=
  fun _ hs => ⟨hs, trivial⟩

theorem meets_read {ok : α → Prop} {bad : ε → Prop} {f : State → α} (h : ∀ s, I s → ok (f s)) :
    Meets A I ok bad (read f : Exec ε α) :=
  fun s hs => ⟨hs, h s hs⟩

theorem meets_modify {ok : Unit → Prop} {bad : ε → Prop} {f : State → State}
    (h : ∀ s, I s → I (f s)) (hok : ok ()) : Meets A I ok bad (modify f : Exec ε Unit) :=
  fun s hs => ⟨h s hs, hok⟩

theorem meets_modifyGet {ok : α → Prop} {bad : ε → Prop} {f : State → α × State}
    (h : ∀ s, I s → I (f s).2 ∧ ok (f s).1) : Meets A I ok bad (modifyGet f : Exec ε α) :=
  fun s hs => h s hs

theorem meets_ofExcept {ok : α → Prop} {bad : ε → Prop} {lift : κ → ε} {r : Except κ α}
    (hok : ∀ a, r = .ok a → ok a) (hbad : ∀ k, r = .error k → bad (lift k)) :
    Meets A I ok bad (ofExcept lift r) := by
  cases r with
  | ok a => exact meets_pure (hok a rfl)
  | error k => exact meets_raise (hbad k rfl)

/-! ## Sequences -/

/-- A sequence meets what its second part meets for every value of the first. -/
theorem meets_bind {M : α → Prop} {ok : β → Prop} {bad : ε → Prop} {x : Exec ε α}
    {f : α → Exec ε β} (hx : Meets A I M bad x) (hf : ∀ a, M a → Meets A I ok bad (f a)) :
    Meets A I ok bad (x >>= f) := by
  intro s hs
  rw [bind_apply, Resumption.ensures_bind]
  refine (hx s hs).mono fun o t h => ?_
  cases o with
  | ok a => exact hf a h.2 t h.1
  | raised e => exact h
  | panicked m => exact ⟨h.1, trivial⟩

theorem meets_mapError {ok : α → Prop} {B : ε → Prop} {bad : δ → Prop} {f : ε → δ}
    {x : Exec ε α} (hx : Meets A I ok B x) (h : ∀ e, B e → bad (f e)) :
    Meets A I ok bad (x.mapError f) := by
  intro s hs
  unfold mapError
  rw [Resumption.ensures_bind]
  refine (hx s hs).mono fun o t ht => ⟨ht.1, ?_⟩
  cases o with
  | ok a => exact ht.2
  | raised e => exact h e ht.2
  | panicked m => trivial

theorem meets_failing {ok : α → Prop} {B : EngineError → Prop} {bad : Raise → Prop}
    {x : Exec EngineError α} (hx : Meets A I ok B x) (h : ∀ e, B e → bad (.failed e)) :
    Meets A I ok bad (failing x) :=
  meets_mapError hx h

theorem meets_settle {ok : α → Prop} {bad : ε → Prop} {bad' : δ → Prop} {x : Exec ε α}
    (hx : Meets A I ok bad x) : Meets A I (Outcome.Within ok bad) bad' (x.settle : Exec δ _) := by
  intro s hs
  unfold settle
  rw [Resumption.ensures_bind]
  exact (hx s hs).mono fun o t ht => ht

/-- A computation between two changes of the state, which may switch to another invariant. The
change back may depend on the state at the start. -/
theorem meets_between {ok : α → Prop} {bad : ε → Prop} {x : Exec ε α} {f : State → State}
    {g : State → State → State} (hx : Meets A J ok bad x) (enter : ∀ s, I s → J (f s))
    (leave : ∀ s t, I s → J t → I (g s t)) :
    Meets A I ok bad fun s => (x.thenAlways (g s)) (f s) := by
  intro s hs
  show Resumption.Ensures _ _ ((x (f s)).bind _) _
  rw [Resumption.ensures_bind]
  exact (hx _ (enter s hs)).mono fun o t ht => ⟨leave s t hs ht.1, ht.2⟩

/-! ## Questions -/

section
variable {ok : Value → Prop} {bad : Raise → Prop}

theorem meets_evaluate {e : Expr} {scope : ScopeId}
    (h : A.Grants I (.evaluate e scope) (Outcome.Within ok bad)) :
    Meets A I ok bad (evaluate e scope) :=
  fun s hs => h s hs

theorem meets_call {f : FunctionRef} {args : List Value}
    (h : A.Grants I (.call f args) (Outcome.Within ok bad)) : Meets A I ok bad (call f args) :=
  fun s hs => h s hs

theorem meets_doWork {w : Work} (h : A.Grants I (.work w) (Outcome.Within ok bad)) :
    Meets A I ok bad (doWork w) :=
  fun s hs => h s hs

end

theorem meets_execute {ok : Completion → Prop} {bad : EngineError → Prop} {stmt : Stmt}
    {scope : ScopeId} {cx : Context}
    (h : A.Grants I (.execute stmt scope cx) (Outcome.Within ok bad)) :
    Meets A I ok bad (execute stmt scope cx) :=
  fun s hs => h s hs

theorem meets_runBlock {ok : Completion → Prop} {bad : EngineError → Prop} {body : Block}
    {scope : ScopeId} {cx : Context}
    (h : A.Grants I (.block body scope cx) (Outcome.Within ok bad)) :
    Meets A I ok bad (runBlock body scope cx) :=
  fun s hs => h s hs

theorem meets_iterate {ok : Completion → Prop} {bad : Raise → Prop} {loop : LoopHead}
    (h : A.Grants I (.iterate loop) (Outcome.Within ok bad)) : Meets A I ok bad (iterate loop) :=
  fun s hs => h s hs

theorem meets_drain {ok : Nat → Prop} {bad : ε → Prop} (h : A.Grants I (.drain 0) ok) :
    Meets A I ok bad (drain : Exec ε Nat) :=
  fun s hs => ⟨(h s hs).1, (h s hs).2⟩

theorem meets_await {ok : Unit → Prop} {bad : ε → Prop} {what : Awaited}
    (h : A.Grants I (.await what) ok) : Meets A I ok bad (await what : Exec ε Unit) :=
  fun s hs => ⟨(h s hs).1, (h s hs).2⟩

end Exec

end StatementEngine
