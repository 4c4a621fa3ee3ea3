import StatementEngine.Engine.Interpreter
import StatementEngine.Proofs.Lexical.Obedience
import StatementEngine.Proofs.Run.Lockstep

/-!
# One statement under two contexts

**A context is handed down, and looked at in three places.** Blocks, branches, handlers, cases and
loops pass it on to the statements in them, and only `breakLoop`, `continueLoop` and `returnValues`
ask it anything. So if two contexts are related, and stay related on the way into loops, then the
engine asks the same questions under both, but for related contexts in them (`Request.Recast`).

`Exec.InStep` is this judgment for two computations: an instance of `Resumption.Lockstep` in which
states and answers are the same in both. There is one rule for each way in which a context is handed
down, and whatever has no context is in step with itself.

The three statements that look at the context are in step where both contexts judge them alike
(`Form.JudgedAlike`).
-/

namespace StatementEngine

/-- The questions are the same but for the contexts in them, which are related. -/
inductive Request.Recast (R : Context → Context → Prop) : Request → Request → Prop
  | same (q : Request) : Recast R q q
  | execute {cx cx' : Context} (related : R cx cx') (stmt : Stmt) (scope : ScopeId) :
      Recast R (.execute stmt scope cx) (.execute stmt scope cx')
  | block {cx cx' : Context} (related : R cx cx') (body : Block) (scope : ScopeId) :
      Recast R (.block body scope cx) (.block body scope cx')
  | iterate {loop : LoopHead} {cx' : Context} (related : R loop.context cx') :
      Recast R (.iterate loop) (.iterate { loop with context := cx' })

/-- The questions are asked in the same state, under related contexts. -/
def Request.Asked (R : Context → Context → Prop) (q : Request) (s : State) (q' : Request)
    (s' : State) : Prop :=
  q.Recast R q' ∧ s' = s

/-- The answers are the same, and so are the states afterwards. -/
def Answer.Same (q : Request) (_ : State) (q' : Request) (_ : State) (a : Answer q) (t : State)
    (b : Answer q') (t' : State) : Prop :=
  HEq b a ∧ t' = t

/-- The contexts agree on whether a statement of the form may stand where it stands. -/
def Form.JudgedAlike (form : Form) (cx cx' : Context) : Prop :=
  match form with
  | .breakLoop | .continueLoop => cx'.inLoop = cx.inLoop
  | .returnValues _ => cx'.callable = cx.callable
  | _ => True

namespace Exec

variable {R : Context → Context → Prop} {cx cx' : Context} {ε δ α β : Type}

/-- From every state the computations ask the same questions under related contexts, and given the
same answers they come to the same end. -/
def InStep (R : Context → Context → Prop) (x y : Exec ε α) : Prop :=
  ∀ s, Resumption.Lockstep (Request.Asked R) Answer.Same (x s) (y s)
    fun o t o' t' => o' = o ∧ t' = t

/-! ## Ways of building computations -/

/-- Whatever a computation asks, it is in step with itself. -/
theorem lockstep_self (r : Asking α) :
    Resumption.Lockstep (Request.Asked R) Answer.Same r r fun a s b t => b = a ∧ t = s :=
  .refl (fun q _ => ⟨.same q, rfl⟩) (fun _ _ _ _ _ _ same => ⟨eq_of_heq same.1, same.2⟩) r

/-- The same end of two bodies, said of answers to different questions. -/
theorem lockstep_answers {r r' : Asking α}
    (h : Resumption.Lockstep (Request.Asked R) Answer.Same r r' fun a s b t => b = a ∧ t = s) :
    Resumption.Lockstep (Request.Asked R) Answer.Same r r' fun a s b t => HEq b a ∧ t = s :=
  h.mono fun _ _ _ _ same => ⟨heq_of_eq same.1, same.2⟩

theorem InStep.refl (x : Exec ε α) : x.InStep R x := fun s => lockstep_self (x s)

/-- Computations in step stay so if both go on from their ends in the same way. -/
theorem InStep.next {x y : Exec ε α} (h : x.InStep R y) (next : Outcome ε α → State → Asking β)
    (s : State) : Resumption.Lockstep (Request.Asked R) Answer.Same ((x s).bind next)
      ((y s).bind next) fun a t b t' => b = a ∧ t' = t := by
  refine Resumption.Lockstep.bind ((h s).mono fun o t o' t' same => ?_)
  obtain ⟨rfl, rfl⟩ := same
  exact lockstep_self (next o' t')

theorem InStep.bind {x y : Exec ε α} {f g : α → Exec ε β} (h : x.InStep R y)
    (hfg : ∀ a, (f a).InStep R (g a)) : (x >>= f).InStep R (y >>= g) := by
  intro s
  refine Resumption.Lockstep.bind ((h s).mono fun o t o' t' same => ?_)
  obtain ⟨rfl, rfl⟩ := same
  cases o' with
  | ok a => exact hfg a t'
  | raised e | panicked m => exact ⟨rfl, rfl⟩

/-- What comes first has no context. -/
theorem InStep.after {x : Exec ε α} {f g : α → Exec ε β} (hfg : ∀ a, (f a).InStep R (g a)) :
    (x >>= f).InStep R (x >>= g) :=
  (refl x).bind hfg

theorem InStep.failing {x y : Exec EngineError α} (h : x.InStep R y) :
    (failing x).InStep R (failing y) :=
  h.next _

theorem InStep.located {x y : Exec Raise Completion} (h : x.InStep R y) (p : Position) :
    (located p x).InStep R (located p y) :=
  h.next _

/-! ## Questions -/

theorem inStep_execute (related : R cx cx') (stmt : Stmt) (scope : ScopeId) :
    (execute stmt scope cx).InStep R (execute stmt scope cx') :=
  fun _ => ⟨⟨.execute related stmt scope, rfl⟩, fun _ _ _ _ same => ⟨eq_of_heq same.1, same.2⟩⟩

theorem inStep_runBlock (related : R cx cx') (body : Block) (scope : ScopeId) :
    (runBlock body scope cx).InStep R (runBlock body scope cx') :=
  fun _ => ⟨⟨.block related body scope, rfl⟩, fun _ _ _ _ same => ⟨eq_of_heq same.1, same.2⟩⟩

theorem inStep_iterate {loop : LoopHead} (related : R loop.context cx') :
    (iterate loop).InStep R (iterate { loop with context := cx' }) :=
  fun _ => ⟨⟨.iterate related, rfl⟩, fun _ _ _ _ same => ⟨eq_of_heq same.1, same.2⟩⟩

/-! ## Blocks -/

section Blocks
variable (related : R cx cx')
include related

theorem inStep_runFrom (body : Block) (scope : ScopeId) (last : Option Value) :
    (runFrom scope cx body last).InStep R (runFrom scope cx' body last) := by
  induction body generalizing last with
  | nil => exact .refl _
  | cons stmt rest ih =>
      refine .after fun _ => (inStep_execute related stmt scope).bind fun c => ?_
      split
      · exact ih _
      · exact .refl _

theorem inStep_blockBody (body : Block) (scope : ScopeId) :
    (blockBody body scope cx).InStep R (blockBody body scope cx') :=
  inStep_runFrom related body scope none

theorem inStep_runChild (body : Block) (scope : ScopeId) :
    (runChild body scope cx).InStep R (runChild body scope cx') :=
  .after fun child => inStep_runBlock related body child

theorem inStep_runOptional (body : Option Block) (scope : ScopeId) :
    (runOptional body scope cx).InStep R (runOptional body scope cx') := by
  cases body with
  | none => exact .refl _
  | some b => exact inStep_runChild related b scope

/-! ## Branches and handlers -/

theorem inStep_runBranches (otherwise : Option Block) (scope : ScopeId) (branches : List Branch) :
    (runBranches otherwise scope cx branches).InStep R
      (runBranches otherwise scope cx' branches) := by
  induction branches with
  | nil => exact (inStep_runOptional related otherwise scope).failing
  | cons b rest ih =>
      refine .after fun v => ?_
      split
      · exact (inStep_runChild related b.body scope).failing
      · exact ih

theorem inStep_runCases (subject : Value) (default : Option Block) (scope : ScopeId)
    (cases : List Case) : (runCases subject default scope cx cases).InStep R
      (runCases subject default scope cx' cases) := by
  induction cases with
  | nil => exact (inStep_runOptional related default scope).failing
  | cons c rest ih =>
      refine .after fun found => ?_
      split
      · exact (inStep_runChild related c.body scope).failing
      · exact ih

theorem inStep_runHandler (handler : Option Handler) (pending : Completion) (scope : ScopeId) :
    (runHandler handler pending scope cx).InStep R (runHandler handler pending scope cx') := by
  unfold runHandler
  split
  · exact .after fun inner => .after fun _ => inStep_runBlock related _ inner
  · exact .refl _

theorem inStep_runTry (body : Block) (handler : Option Handler) (cleanup : Option Block)
    (scope : ScopeId) :
    (runTry body handler cleanup scope cx).InStep R (runTry body handler cleanup scope cx') := by
  refine (inStep_runChild related body scope).bind fun attempted => ?_
  refine (inStep_runHandler related handler attempted scope).bind fun pending => ?_
  exact (inStep_runOptional related cleanup scope).bind fun c => .refl _

/-! ## Loops -/

theorem inStep_runRows (vars : List Name) (body : Block) (scope : ScopeId)
    (rs : List (List Value)) :
    (runRows vars body scope cx rs).InStep R (runRows vars body scope cx' rs) := by
  induction rs with
  | nil => exact .refl _
  | cons row rest ih =>
      refine .after fun _ => .after fun iteration => .after fun _ => ?_
      refine (inStep_runBlock related body iteration).failing.bind fun c => ?_
      split
      · exact ih
      · exact .refl _
      · exact .refl _

end Blocks

theorem inStep_iterateBody {loop : LoopHead} (related : R loop.context cx') :
    (iterateBody loop).InStep R (iterateBody { loop with context := cx' }) := by
  refine .after fun _ => .after fun b => ?_
  split
  · refine (inStep_runChild related loop.body loop.scope).failing.bind fun c => ?_
    split
    · dsimp only
      split
      · exact .after fun _ => inStep_iterate related
      · exact inStep_iterate related
    · exact .refl _
    · exact .refl _
  · exact .refl _

/-! ## Statements -/

section Statements
variable (related : R cx cx') (inside : R cx.enterLoop cx'.enterLoop)
include related inside

theorem inStep_runForClauses (init : Option Stmt) (condition update : Option Expr) (body : Block)
    (scope : ScopeId) :
    (runForClauses init condition update body scope cx).InStep R
      (runForClauses init condition update body scope cx') := by
  refine .after fun child => ?_
  have goOn : ∀ started : Completion,
      (if started.isNormal then iterate ⟨condition, update, body, child, cx.enterLoop⟩
        else pure (.ofSignal started.signal)).InStep R
      (if started.isNormal then iterate ⟨condition, update, body, child, cx'.enterLoop⟩
        else pure (.ofSignal started.signal)) := by
    intro started
    split
    · exact inStep_iterate inside
    · exact .refl _
  cases init with
  | none => exact .after goOn
  | some stmt => exact (inStep_execute related stmt child).failing.bind goOn

/-- A statement of a form that both contexts judge alike. -/
theorem inStep_runForm (p : Position) (form : Form) (alike : form.JudgedAlike cx cx')
    (scope : ScopeId) : (runForm p form scope cx).InStep R (runForm p form scope cx') := by
  cases form with
  | ifChain branches otherwise => exact inStep_runBranches related otherwise scope branches
  | tryCatch body handler cleanup =>
      exact (inStep_runTry related body handler cleanup scope).failing
  | forIn vars iterable body =>
      exact .after fun v => .after fun rs => inStep_runRows inside vars body scope rs
  | forClauses init condition update body =>
      exact inStep_runForClauses related inside init condition update body scope
  | loop condition body => exact inStep_iterate inside
  | switch subject cases default =>
      exact .after fun v => inStep_runCases related v default scope cases
  | breakLoop | continueLoop =>
      have same : cx'.inLoop = cx.inLoop := alike
      unfold runForm
      rw [same]
      exact .refl _
  | returnValues values =>
      have same : cx'.callable = cx.callable := alike
      unfold runForm
      rw [same]
      exact .refl _
  -- all others have no context, and that of a module is its own
  | expr | throwValue | moduleBlock | var | assign | assignFound | spawn => exact .refl _

theorem inStep_executeBody (stmt : Stmt) (alike : stmt.form.JudgedAlike cx cx') (scope : ScopeId) :
    (executeBody stmt scope cx).InStep R (executeBody stmt scope cx') :=
  (inStep_runForm related inside stmt.position stmt.form alike scope).located stmt.position

end Statements

end Exec

end StatementEngine
