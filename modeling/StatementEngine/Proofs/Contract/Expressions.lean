import StatementEngine.Proofs.Contract.Basic
import StatementEngine.Proofs.PlainFailures

/-!
# Contracts of expressions and assignments

Every function that the bodies are made of has a rule: it meets a contract if the questions it asks
do. The recursions over lists (operands and targets here, and elsewhere statements, branches,
candidates, rows and actions) are gone through once, in their rules. To check a contract only the
bodies themselves are left, and for each form of statement that is one application of the rule of
its function.

What the engine does to the state between two questions is collected in `StableAt`, for the scope
that something runs in, and in `Stable`, for invariants that do not care which scope that is. Two
things are not in it, because contracts differ on them: what a declaration binds in the scope it
stands in, and what a function literal captures.
-/

namespace StatementEngine

/-- What the engine does to the scheduler. -/
inductive Scheduler.Step (s : Scheduler) : Scheduler → Prop
  | spawn (work : Work) (p : Position) (w : Option WorkerId) : Step s (s.spawn work p w)
  | cancel (t : TaskId) : Step s (s.cancel t)
  | cancelAll : Step s s.cancelAll
  | take {w : Option WorkerId} {job : Job} {rest : Scheduler}
      (taken : s.take? w = some (job, rest)) : Step s rest
  | start (t : TaskId) : Step s (s.start t).2
  | finish (t : TaskId) (status : TaskStatus) : Step s (s.finish t status)
  | leave (t : TaskId) : Step s (s.leave t)

/-- An invariant that withstands what the engine does to the rest of the state besides scopes. -/
structure Steady (I : State → Prop) : Prop where
  register : ∀ s modules, I s → I { s with modules }
  schedule : ∀ s scheduler, s.scheduler.Step scheduler → I s → I { s with scheduler }
  tell : ∀ s sink, I s → I { s with sink }
  record : ∀ s recorded, I s → I { s with recorded }
  hold : ∀ s held, I s → I { s with held }
  note : ∀ s log, I s → I { s with log }

/-- An invariant that withstands what is done in one scope. Of a scope that has just been made below
it `below` holds as well, and only such scopes get bindings other than by declarations. -/
structure StableAt (I : State → Prop) (scope : ScopeId) (below : ScopeId → State → Prop) : Prop
    extends Steady I where
  steady : ∀ child, Steady (below child)
  newChild : ∀ s, I s → below s.scopes.next (s.newChild scope).2
  outer : ∀ child s, below child s → I s
  bind : ∀ child s name v, below child s →
    below child { s with scopes := s.scopes.define child name v }
  overwrite : ∀ s name d v, s.scopes.definer? scope name = some d → I s →
    I { s with scopes := s.scopes.define d name v }

/-- An invariant that withstands the steps of the engine wherever they are made. Scopes that have
just been made are `fresh`. -/
structure Stable (I : State → Prop) (fresh : ScopeId → Prop) : Prop extends Steady I where
  newChild : ∀ s scope, I s → I (s.newChild scope).2 ∧ fresh s.scopes.next
  defineFresh : ∀ s scope name v, fresh scope → I s →
    I { s with scopes := s.scopes.define scope name v }
  overwrite : ∀ s scope name d v, s.scopes.definer? scope name = some d → I s →
    I { s with scopes := s.scopes.define d name v }

/-- The invariant, in a scope that is fresh. -/
def Inner (I : State → Prop) (fresh : ScopeId → Prop) (child : ScopeId) (s : State) : Prop :=
  I s ∧ fresh child

/-- What withstands the steps wherever they are made does so in each scope. -/
theorem Stable.at {I : State → Prop} {fresh : ScopeId → Prop} (hI : Stable I fresh)
    (scope : ScopeId) : StableAt I scope (Inner I fresh) where
  toSteady := hI.toSteady
  steady _ := {
    register := fun s modules h => ⟨hI.register s modules h.1, h.2⟩
    schedule := fun s scheduler step h => ⟨hI.schedule s scheduler step h.1, h.2⟩
    tell := fun s sink h => ⟨hI.tell s sink h.1, h.2⟩
    record := fun s recorded h => ⟨hI.record s recorded h.1, h.2⟩
    hold := fun s held h => ⟨hI.hold s held h.1, h.2⟩
    note := fun s log h => ⟨hI.note s log h.1, h.2⟩ }
  newChild s h := hI.newChild s scope h
  outer _ _ h := h.1
  bind child s name v h := ⟨hI.defineFresh s child name v h.2 h.1, h.2⟩
  overwrite s name d v found h := hI.overwrite s scope name d v found h

/-- The expressions that an expression evaluates itself, in its own scope. -/
def Expr.operands : Expr → List Expr
  | .literal _ | .variable _ | .function _ | .member .. | .fail _ => []
  | .list items => items
  | .binary _ left right => [left, right]
  | .index target key => [target, key]
  | .call callee args => callee :: args
  | .raise value => [value]
  | .set _ value => [value]

/-- The expressions that are evaluated to read or write a target. -/
def Target.expressions : Target → List Expr
  | .variable .. => []
  | .place _ (.index target key) => [.index target key, key]
  | .place _ e => [e]

namespace Exec

variable {A : Contract} {I : State → Prop} {fresh : ScopeId → Prop} {scope : ScopeId}
  {below : ScopeId → State → Prop} {α ε : Type}

/-! ## Scopes and variables -/

/-- What goes on in a new scope may rely on what holds of that scope. -/
theorem meets_withChild {ok : α → Prop} {bad : ε → Prop} {f : ScopeId → Exec ε α}
    (hI : StableAt I scope below) (hf : ∀ child, Meets A (below child) ok bad (f child)) :
    Meets A I ok bad (newChild scope >>= f) := by
  intro s hs
  refine Resumption.Ensures.mono (hf _ _ (hI.newChild s hs)) fun o t ht => ?_
  exact ⟨hI.outer _ t ht.1, ht.2⟩

/-- In a fresh scope, that it is fresh can be relied on. -/
theorem meets_inner {ok : α → Prop} {bad : ε → Prop} {x : Exec ε α} {child : ScopeId}
    (h : fresh child → Meets A I ok bad x) : Meets A (Inner I fresh child) ok bad x :=
  fun s hs => (h hs.2 s hs.1).mono fun _ _ ht => ⟨⟨ht.1, hs.2⟩, ht.2⟩

theorem meets_defineAll {bad : ε → Prop} {bindings : List (Name × Value)}
    (h : ∀ s, ∀ b ∈ bindings, I s → I { s with scopes := s.scopes.define scope b.1 b.2 }) :
    Meets A I (fun _ => True) bad (defineAll scope bindings : Exec ε Unit) := by
  refine meets_modify (fun s hs => ?_) trivial
  induction bindings generalizing s with
  | nil => exact hs
  | cons b rest ih =>
      have hb := h s b List.mem_cons_self hs
      exact ih (fun s c hc => h s c (List.mem_cons_of_mem b hc)) _ hb

theorem meets_defineChild {bad : ε → Prop} (hI : StableAt I scope below) (child : ScopeId)
    (bindings : List (Name × Value)) :
    Meets A (below child) (fun _ => True) bad (defineAll child bindings : Exec ε Unit) :=
  meets_defineAll fun s b _ hs => hI.bind child s b.1 b.2 hs

theorem meets_readVariable (scope : ScopeId) (name : Name) :
    Meets A I (fun _ => True) ErrorKind.IsPlain (readVariable scope name) := by
  intro s hs
  unfold readVariable
  split
  · exact ⟨hs, trivial⟩
  · exact ⟨hs, trivial⟩

theorem meets_setVariable (hI : StableAt I scope below) (name : Name) (v : Value) :
    Meets A I (fun _ => True) ErrorKind.IsPlain (setVariable scope name v) := by
  intro s hs
  rw [setVariable_apply]
  split
  · next d hd => exact ⟨hI.overwrite s name d v hd hs, trivial⟩
  · exact ⟨hs, trivial⟩

theorem meets_checkStop {bad : EngineError → Prop} (stop : bad (.ofKind .cancelled)) :
    Meets A I (fun _ => True) bad checkStop := by
  intro s hs
  unfold checkStop
  split
  · exact ⟨hs, stop⟩
  · exact ⟨hs, trivial⟩

/-! ## Expressions -/

section Expressions
variable {bad : Raise → Prop} (plain : ∀ k, ErrorKind.IsPlain k → bad (.ofKind k))
include plain

omit plain in
theorem meets_evaluateAll {es : List Expr}
    (each : ∀ e ∈ es, Meets A I (fun _ => True) bad (evaluate e scope)) :
    Meets A I (fun _ => True) bad (evaluateAll scope es) := by
  induction es with
  | nil => exact meets_pure trivial
  | cons e rest ih =>
      refine meets_bind (each e List.mem_cons_self) fun v _ => ?_
      refine meets_bind (ih fun e he => each e (List.mem_cons_of_mem _ he)) fun vs _ => ?_
      exact meets_pure trivial

theorem meets_evaluateCall {callee : Expr} {args : List Expr}
    (each : ∀ e ∈ callee :: args, Meets A I (fun _ => True) bad (evaluate e scope)) :
    Meets A I (fun _ => True) bad (evaluateCall scope callee args) := by
  unfold evaluateCall
  refine meets_bind (each callee List.mem_cons_self) fun v _ => ?_
  split
  · refine meets_bind (meets_evaluateAll fun e he => each e (List.mem_cons_of_mem _ he)) ?_
    exact fun vs _ => meets_pure trivial
  · exact meets_raise (plain _ trivial)

theorem meets_ofExcept_plain {r : Except ErrorKind α} (h : ∀ k, r = .error k → k.IsPlain) :
    Meets A I (fun _ => True) bad (ofExcept .ofKind r) :=
  meets_ofExcept (fun _ _ => trivial) fun k hk => plain k (h k hk)

/-- The container is set back only after the key has been evaluated and the element changed. -/
theorem meets_assignPlace (hI : StableAt I scope below) {place : Expr} {value : Value}
    (key : ∀ target k, place = .index target k →
      Meets A I (fun _ => True) bad (evaluate k scope)) :
    Meets A I (fun _ => True) bad (assignPlace place value scope) := by
  unfold assignPlace
  split
  · next name k =>
    refine meets_bind (key _ k rfl) fun q _ => ?_
    refine meets_bind (meets_mapError (meets_readVariable scope name) plain) fun container _ => ?_
    refine meets_bind
      (meets_ofExcept_plain plain fun _ h => (Value.ofOperation_of_withElement h).isPlain)
      fun changed _ => ?_
    exact meets_mapError (meets_setVariable hI name changed) plain
  · exact meets_raise (plain _ trivial)
  · exact meets_raise (plain _ trivial)

theorem meets_evaluateBody (hI : StableAt I scope below) {e : Expr}
    (thrown : ∀ v, bad (.thrown v none))
    (operand : ∀ e' ∈ e.operands, Meets A I (fun _ => True) bad (evaluate e' scope))
    (calls : ∀ f args, Meets A I (fun _ => True) bad (call f args))
    (captures : ∀ literal, e = .function literal →
      Meets A I (fun _ => True) bad (capture literal scope)) :
    Meets A I (fun _ => True) bad (evaluateBody e scope) := by
  cases e with
  | literal v => exact meets_pure trivial
  | «variable» name => exact meets_mapError (meets_readVariable scope name) plain
  | list items => exact meets_bind (meets_evaluateAll operand) fun vs _ => meets_pure trivial
  | binary op left right =>
      refine meets_bind (operand left (by simp [Expr.operands])) fun a _ => ?_
      refine meets_bind (operand right (by simp [Expr.operands])) fun b _ => ?_
      exact meets_ofExcept_plain plain fun _ h => (BinaryOp.ofOperation_of_apply h).isPlain
  | index target key =>
      refine meets_bind (operand target (by simp [Expr.operands])) fun t _ => ?_
      refine meets_bind (operand key (by simp [Expr.operands])) fun k _ => ?_
      exact meets_ofExcept_plain plain fun _ h => (Value.ofOperation_of_element h).isPlain
  | call callee args =>
      refine meets_bind (meets_evaluateCall plain operand) fun fvs _ => ?_
      exact calls fvs.1 fvs.2
  | function literal => exact captures literal rfl
  | member owner name =>
      refine meets_bind
        (M := fun r : Except ErrorKind Value => ∀ k, r = .error k → k.IsPlain)
        (meets_read fun s _ _ h => (Registry.ofOperation_of_resolve h).isPlain) fun r hr => ?_
      exact meets_ofExcept_plain plain hr
  | fail message => exact meets_raise (plain _ trivial)
  | raise value =>
      refine meets_bind (operand value (by simp [Expr.operands])) fun v _ => ?_
      exact meets_raise (thrown v)
  | set name value =>
      refine meets_bind (operand value (by simp [Expr.operands])) fun v _ => ?_
      refine meets_bind (meets_mapError (meets_setVariable hI name v) plain) fun _ _ => ?_
      exact meets_pure trivial

/-! ## Targets -/

/-- Filling in a position is what locating comes to for a failure that has none. -/
theorem bad_locate {p : Position} (fill : ∀ r, bad r → bad (r.fillPosition p)) (k : ErrorKind)
    (hk : k.IsPlain) : bad (.failed ((EngineError.ofKind k).locate p)) :=
  fill (.ofKind k) (plain k hk)

theorem meets_readTarget {target : Target}
    (fill : ∀ r, bad r → bad (r.fillPosition target.position))
    (each : ∀ e ∈ target.expressions, Meets A I (fun _ => True) bad (evaluate e scope)) :
    Meets A I (fun _ => True) bad (readTarget target scope) := by
  cases target with
  | «variable» p name =>
      exact meets_mapError (meets_readVariable scope name) fun k hk => bad_locate plain fill k hk
  | place p e =>
      have he : e ∈ (Target.place p e).expressions := by
        cases e <;> simp [Target.expressions]
      exact meets_mapError (each e he) fill

theorem meets_writeTarget (hI : StableAt I scope below) {target : Target} {v : Value}
    (fill : ∀ r, bad r → bad (r.fillPosition target.position))
    (each : ∀ e ∈ target.expressions, Meets A I (fun _ => True) bad (evaluate e scope)) :
    Meets A I (fun _ => True) bad (writeTarget target v scope) := by
  cases target with
  | «variable» p name =>
      refine meets_mapError (meets_setVariable hI name v) fun k hk => ?_
      exact bad_locate plain fill k hk
  | place p e =>
      refine meets_mapError (meets_assignPlace plain hI fun t k hk => each k ?_) fill
      simp [hk, Target.expressions]

/-- Targets are assigned to one after the other; a compound operator reads each before. -/
theorem meets_assignEach (hI : StableAt I scope below) {p : Position} {op : AssignOp}
    (fill : ∀ r, bad r → bad (r.fillPosition p)) {pairs : List (Target × Value)} {last : Value}
    (fillTarget : ∀ tv ∈ pairs, ∀ r, bad r → bad (r.fillPosition tv.1.position))
    (each : ∀ tv ∈ pairs, ∀ e ∈ tv.1.expressions,
      Meets A I (fun _ => True) bad (evaluate e scope)) :
    Meets A I (fun _ => True) bad (assignEach p op scope pairs last) := by
  induction pairs generalizing last with
  | nil => exact meets_pure trivial
  | cons tv rest ih =>
      obtain ⟨target, v⟩ := tv
      have hfill := fillTarget _ List.mem_cons_self
      have heach := each _ List.mem_cons_self
      refine meets_bind (M := fun _ => True) ?_ fun written _ => ?_
      · unfold assignOne
        split
        · refine meets_bind (meets_readTarget plain hfill heach) fun current _ => ?_
          refine meets_bind (M := fun _ => True)
            (meets_ofExcept (fun _ _ => trivial) fun k hk => ?_) fun updated _ => ?_
          · exact fill _ (plain k (AssignOp.ofOperation_of_apply hk).isPlain)
          · refine meets_bind (meets_writeTarget plain hI hfill heach) fun _ _ => ?_
            exact meets_pure trivial
        · refine meets_bind (meets_writeTarget plain hI hfill heach) fun _ _ => ?_
          exact meets_pure trivial
      · exact ih (fun tv h => fillTarget tv (List.mem_cons_of_mem _ h))
          fun tv h => each tv (List.mem_cons_of_mem _ h)

end Expressions

end Exec

end StatementEngine
