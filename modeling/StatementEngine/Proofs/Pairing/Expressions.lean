import StatementEngine.Proofs.Pairing.Basic

/-!
# Pairs of expressions and assignments

**An expression is evaluated alike in paired scopes.** What its operands yield only holds functions
that may be met, so the same is true of what the engine makes of them; and what a variable is set to
has been yielded before. The rules follow the functions of the engine one by one.
-/

namespace StatementEngine

namespace Exec

variable {P : Pairing} {n : Nat} {i i' : ScopeId} (paired : P.scope n i i')
include paired

/-! ## Expressions -/

theorem pairs_evaluateAll {es : List Expr} (obeys : ∀ e ∈ es, e.Obeys P.rule) :
    PairsRaise P n (fun vs => ∀ v ∈ vs, v.Only P.fn) (evaluateAll i es) (evaluateAll i' es) := by
  induction es with
  | nil => exact pairs_value fun _ h => by cases h
  | cons e rest ih =>
      refine pairs_then (pairs_evaluate (obeys e List.mem_cons_self) paired) fun v hv => ?_
      refine pairs_then (ih fun e he => obeys e (List.mem_cons_of_mem _ he)) fun vs hvs => ?_
      exact pairs_value (List.forall_mem_cons.mpr ⟨hv, hvs⟩)

theorem pairs_evaluateCall {callee : Expr} {args : List Expr}
    (obeys : ∀ e ∈ callee :: args, e.Obeys P.rule) :
    PairsRaise P n (fun fvs => P.fn fvs.1 ∧ ∀ v ∈ fvs.2, v.Only P.fn) (evaluateCall i callee args)
      (evaluateCall i' callee args) := by
  refine pairs_then (pairs_evaluate (obeys callee List.mem_cons_self) paired) fun v hv => ?_
  split
  · have rest := pairs_evaluateAll paired fun e he => obeys e (List.mem_cons_of_mem _ he)
    exact pairs_then rest fun vs hvs => pairs_value ⟨Value.only_function.mp hv, hvs⟩
  · exact pairs_raise trivial

theorem pairs_capture {literal : FunctionLiteral} (obeys : BlockObeys P.rule .function literal.body) :
    PairsRaise P n (Value.Only P.fn) (capture literal i) (capture literal i') := by
  refine pairs_modifyGet fun s s' twin => ?_
  cases twin with
  | intro h' twin room =>
      obtain ⟨grown, size, known⟩ := P.capture literal twin (P.scope_mono room paired) obeys
      refine ⟨.intro (h'.capture literal i') grown room, ?_, Value.only_function.mpr known⟩
      exact congrArg (fun n => Value.function (.closure n literal.name)) size

/-- The operands of an expression are yielded alike, and so is what is made of them. -/
theorem pairs_evaluateBody {e : Expr} (obeys : e.Obeys P.rule) :
    PairsRaise P n (Value.Only P.fn) (evaluateBody e i) (evaluateBody e i') := by
  have operand : ∀ o ∈ e.operands, PairsRaise P n (Value.Only P.fn) (evaluate o i) (evaluate o i') :=
    fun o ho => pairs_evaluate (obeys.operand ho) paired
  have operands : ∀ o ∈ e.operands, o.Obeys P.rule := fun o ho => obeys.operand ho
  cases e with
  | literal v => exact pairs_value (obeys.here v rfl)
  | «variable» name => exact pairs_ofKind (pairs_readVariable paired name)
  | list items =>
      refine pairs_then (pairs_evaluateAll paired operands) fun vs hvs => ?_
      exact pairs_value (Value.only_list.mpr hvs)
  | binary op left right =>
      refine pairs_then (operand left (by simp [Expr.operands])) fun a ha => ?_
      refine pairs_then (operand right (by simp [Expr.operands])) fun b hb => ?_
      exact pairs_ofExcept (fun v h => BinaryOp.only_apply h ha hb) fun _ => trivial
  | index target key =>
      refine pairs_then (operand target (by simp [Expr.operands])) fun t ht => ?_
      refine pairs_then (operand key (by simp [Expr.operands])) fun k _ => ?_
      exact pairs_ofExcept (fun v h => Value.only_element h ht) fun _ => trivial
  | call callee args =>
      refine pairs_then (pairs_evaluateCall paired operands) fun fvs known => ?_
      exact pairs_call known.1 known.2
  | function literal => exact pairs_capture paired obeys.body
  | member owner name =>
      have resolved : Pairs P n (Same fun r => ∀ v, r = .ok v → v.Only P.fn) (Raise.Only P.fn)
          (read fun s => s.modules.resolve s.scopes owner name)
          (read fun s => s.modules.resolve s.scopes owner name) :=
        pairs_read fun s s' twin => twin.resolve owner name
      exact pairs_then resolved fun r hr => pairs_ofExcept hr fun _ => trivial
  | fail message => exact pairs_raise trivial
  | raise value =>
      refine pairs_then (operand value (by simp [Expr.operands])) fun v hv => ?_
      exact pairs_raise hv
  | set name value =>
      refine pairs_then (operand value (by simp [Expr.operands])) fun v hv => ?_
      exact pairs_then (pairs_ofKind (pairs_setVariable paired name hv)) fun _ _ => pairs_value hv

/-! ## Targets -/

theorem pairs_assignPlace {place : Expr} {v : Value} (hv : v.Only P.fn)
    (key : ∀ target k, place = .index target k → k.Obeys P.rule) :
    PairsRaise P n (fun _ => True) (assignPlace place v i) (assignPlace place v i') := by
  unfold assignPlace
  split
  · next name k =>
      refine pairs_then (pairs_evaluate (key _ k rfl) paired) fun q _ => ?_
      refine pairs_then (pairs_ofKind (pairs_readVariable paired name)) fun container hc => ?_
      refine pairs_then (M := Value.Only P.fn) (pairs_ofExcept
        (fun changed h => Value.only_withElement h hc hv) fun _ => trivial) fun changed h => ?_
      exact pairs_ofKind (pairs_setVariable paired name h)
  · exact pairs_raise trivial
  · exact pairs_raise trivial

theorem pairs_readTarget {target : Target} (obeys : ∀ e ∈ target.expressions, e.Obeys P.rule) :
    PairsRaise P n (Value.Only P.fn) (readTarget target i) (readTarget target i') := by
  cases target with
  | «variable» p name =>
      exact pairs_mapError (pairs_readVariable paired name) fun _ _ => trivial
  | place p e =>
      have he : e ∈ (Target.place p e).expressions := by
        cases e <;> simp [Target.expressions]
      exact pairs_fillPosition (pairs_evaluate (obeys e he) paired) p

theorem pairs_writeTarget {target : Target} {v : Value} (hv : v.Only P.fn)
    (obeys : ∀ e ∈ target.expressions, e.Obeys P.rule) :
    PairsRaise P n (fun _ => True) (writeTarget target v i) (writeTarget target v i') := by
  cases target with
  | «variable» p name =>
      exact pairs_mapError (pairs_setVariable paired name hv) fun _ _ => trivial
  | place p e =>
      refine pairs_fillPosition (pairs_assignPlace paired hv fun t k hk => obeys k ?_) p
      simp [hk, Target.expressions]

theorem pairs_assignOne {p : Position} {op : AssignOp} {target : Target} {v : Value}
    (hv : v.Only P.fn) (obeys : ∀ e ∈ target.expressions, e.Obeys P.rule) :
    PairsRaise P n (Value.Only P.fn) (assignOne p op target v i) (assignOne p op target v i') := by
  unfold assignOne
  split
  · refine pairs_then (pairs_readTarget paired obeys) fun current hcurrent => ?_
    refine pairs_then (M := Value.Only P.fn) (pairs_ofExcept
      (fun updated h => AssignOp.only_apply h hcurrent hv) fun _ => trivial) fun updated h => ?_
    exact pairs_then (pairs_writeTarget paired h obeys) fun _ _ => pairs_value h
  · exact pairs_then (pairs_writeTarget paired hv obeys) fun _ _ => pairs_value hv

theorem pairs_assignEach {p : Position} {op : AssignOp} {pairs : List (Target × Value)}
    {last : Value} (hlast : last.Only P.fn)
    (only : ∀ tv ∈ pairs, tv.2.Only P.fn)
    (obeys : ∀ tv ∈ pairs, ∀ e ∈ tv.1.expressions, e.Obeys P.rule) :
    PairsRaise P n (Value.Only P.fn) (assignEach p op i pairs last)
      (assignEach p op i' pairs last) := by
  induction pairs generalizing last with
  | nil => exact pairs_value hlast
  | cons tv rest ih =>
      refine pairs_then (pairs_assignOne paired (only tv List.mem_cons_self)
        (obeys tv List.mem_cons_self)) fun written hwritten => ?_
      exact ih hwritten (fun tv h => only tv (List.mem_cons_of_mem _ h))
        fun tv h => obeys tv (List.mem_cons_of_mem _ h)

/-! ## Declarations and assignments -/

omit paired in
theorem pairs_runVar {names : List Name} {values : List Expr} (paired : P.own n i i')
    (obeys : ∀ e ∈ values, e.Obeys P.rule) :
    PairsRaise P n (Completion.Only P.fn) (runVar names values i) (runVar names values i') := by
  refine pairs_then (pairs_evaluateAll (P.scope_of_own paired) obeys) fun vs hvs => ?_
  refine pairs_then (M := fun bindings => ∀ b ∈ bindings, b.2.Only P.fn)
    (pairs_ofExcept (fun bindings h => only_declared h hvs) fun _ => trivial) fun bindings h => ?_
  exact pairs_then (pairs_defineAll paired h) fun _ _ => pairs_value Completion.only_empty

theorem pairs_runAssign {p : Position} {targets : List Target} {op : AssignOp}
    {values : List Expr} (obeys : ∀ e ∈ values, e.Obeys P.rule)
    (each : ∀ t ∈ targets, ∀ e ∈ t.expressions, e.Obeys P.rule) :
    PairsRaise P n (Completion.Only P.fn) (runAssign p targets op values i)
      (runAssign p targets op values i') := by
  refine pairs_then (pairs_evaluateAll paired obeys) fun vs hvs => ?_
  refine pairs_then (M := fun paired => ∀ v ∈ paired, v.Only P.fn)
    (pairs_ofExcept (fun _ h => only_assigned h hvs) fun _ => trivial) fun written h => ?_
  refine pairs_then (pairs_assignEach paired Value.only_nil
    (fun tv htv => h tv.2 (List.of_mem_zip htv).2)
    fun tv htv => each tv.1 (List.of_mem_zip htv).1) fun last hlast => ?_
  exact pairs_value (Completion.only_ofValue hlast)

theorem pairs_runAssignFound {p : Position} {targets : List Target} {value : Expr}
    (obeys : value.Obeys P.rule) (each : ∀ t ∈ targets, ∀ e ∈ t.expressions, e.Obeys P.rule) :
    PairsRaise P n (Completion.Only P.fn) (runAssignFound p targets value i)
      (runAssignFound p targets value i') := by
  unfold runAssignFound
  split
  · exact pairs_raise trivial
  · refine pairs_then (pairs_evaluate obeys paired) fun v hv => ?_
    have both : ∀ w ∈ [v, .bool !v.isNil], w.Only P.fn := by simpa using hv
    refine pairs_then (pairs_assignEach paired Value.only_nil
      (fun tv htv => both tv.2 (List.of_mem_zip htv).2)
      fun tv htv => each tv.1 (List.of_mem_zip htv).1) fun _ _ => ?_
    exact pairs_value (Completion.only_ofValue hv)

end Exec

end StatementEngine
