import StatementEngine.Proofs.Pairing.Expressions

/-!
# Pairs of blocks and statements

**A statement runs alike in paired scopes.** Its blocks run in scopes that are made in both runs, so
these are paired as well, and what it binds there has been yielded or thrown before. Only a
declaration binds names in the scope of the statement itself.
-/

namespace StatementEngine

namespace Exec

variable {P : Pairing} {n : Nat} {i i' : ScopeId}

/-! ## Blocks -/

section Blocks
variable {cx : Context}

theorem pairs_runFrom {body : Block} {last : Option Value} (paired : P.own n i i')
    (obeys : BlockObeys P.rule cx.site body) (hlast : ∀ v ∈ last, v.Only P.fn) :
    PairsError P n (Completion.Only P.fn) (runFrom i cx body last) (runFrom i' cx body last) := by
  induction body generalizing last with
  | nil => exact pairs_value ⟨hlast, trivial⟩
  | cons stmt rest ih =>
      refine pairs_then (pairs_mapError pairs_checkStop fun _ _ => trivial) fun _ _ => ?_
      refine pairs_then (pairs_execute (obeys stmt List.mem_cons_self) paired) fun c hc => ?_
      split
      · exact ih (fun s hs => obeys s (List.mem_cons_of_mem _ hs)) (hc.orValue hlast)
      · exact pairs_value ⟨hc.orValue hlast, hc.2⟩

theorem pairs_blockBody {body : Block} (paired : P.own n i i')
    (obeys : BlockObeys P.rule cx.site body) :
    PairsError P n (Completion.Only P.fn) (blockBody body i cx) (blockBody body i' cx) :=
  pairs_runFrom paired obeys fun _ h => by cases h

variable (paired : P.scope n i i')
include paired

theorem pairs_runChild {body : Block} (obeys : BlockObeys P.rule cx.site body) :
    PairsError P n (Completion.Only P.fn) (runChild body i cx) (runChild body i' cx) :=
  pairs_withChild paired fun _ _ _ _ child => pairs_runBlock obeys child

theorem pairs_runOptional {body : Option Block} (obeys : ∀ b ∈ body, BlockObeys P.rule cx.site b) :
    PairsError P n (Completion.Only P.fn) (runOptional body i cx) (runOptional body i' cx) := by
  cases body with
  | none => exact pairs_value Completion.only_empty
  | some b => exact pairs_runChild paired (obeys b rfl)

/-! ## Branches and handlers -/

theorem pairs_runBranches {otherwise : Option Block} {branches : List Branch}
    (each : ∀ b ∈ branches, b.condition.Obeys P.rule)
    (bodies : ∀ b ∈ branches, BlockObeys P.rule cx.site b.body)
    (last : ∀ b ∈ otherwise, BlockObeys P.rule cx.site b) :
    PairsRaise P n (Completion.Only P.fn) (runBranches otherwise i cx branches)
      (runBranches otherwise i' cx branches) := by
  induction branches with
  | nil => exact pairs_failing (pairs_runOptional paired last)
  | cons b rest ih =>
      have condition := pairs_evaluate (each b List.mem_cons_self) paired
      refine pairs_then (pairs_fillPosition condition b.position) fun v _ => ?_
      split
      · exact pairs_failing (pairs_runChild paired (bodies b List.mem_cons_self))
      · exact ih (fun c h => each c (List.mem_cons_of_mem _ h))
          fun c h => bodies c (List.mem_cons_of_mem _ h)

theorem pairs_runCandidates {default : Option Block} {subject : Value}
    {candidates : List (Expr × Position × Block)} (each : ∀ c ∈ candidates, c.1.Obeys P.rule)
    (bodies : ∀ c ∈ candidates, BlockObeys P.rule cx.site c.2.2)
    (last : ∀ b ∈ default, BlockObeys P.rule cx.site b) :
    PairsRaise P n (Completion.Only P.fn) (runCandidates subject default i cx candidates)
      (runCandidates subject default i' cx candidates) := by
  induction candidates with
  | nil => exact pairs_failing (pairs_runOptional paired last)
  | cons c rest ih =>
      have candidate := pairs_evaluate (each c List.mem_cons_self) paired
      refine pairs_then (pairs_fillPosition candidate c.2.1) fun v _ => ?_
      split
      · exact pairs_failing (pairs_runChild paired (bodies c List.mem_cons_self))
      · exact ih (fun d h => each d (List.mem_cons_of_mem _ h))
          fun d h => bodies d (List.mem_cons_of_mem _ h)

theorem pairs_runHandler {handler : Option Handler} {pending : Completion}
    (hpending : pending.Only P.fn) (obeys : ∀ h ∈ handler, BlockObeys P.rule cx.site h.body) :
    PairsError P n (Completion.Only P.fn) (runHandler handler pending i cx)
      (runHandler handler pending i' cx) := by
  unfold runHandler
  split
  · next h v p thrown =>
      have hv : v.Only P.fn := by
        have signal := hpending.2
        rw [thrown] at signal
        exact signal
      refine pairs_withChild paired fun m inner inner' _ child => ?_
      refine pairs_then (pairs_defineAll child fun b hb => ?_) fun _ _ => ?_
      · obtain ⟨name, -, rfl⟩ := List.mem_map.mp hb
        exact hv
      · exact pairs_runBlock (obeys h rfl) child
  · exact pairs_value hpending

theorem pairs_runTry {body : Block} {handler : Option Handler} {cleanup : Option Block}
    (hbody : BlockObeys P.rule cx.site body)
    (hhandler : ∀ h ∈ handler, BlockObeys P.rule cx.site h.body)
    (hcleanup : ∀ b ∈ cleanup, BlockObeys P.rule cx.site b) :
    PairsError P n (Completion.Only P.fn) (runTry body handler cleanup i cx)
      (runTry body handler cleanup i' cx) := by
  refine pairs_then (pairs_runChild paired hbody) fun attempted hattempted => ?_
  refine pairs_then (pairs_runHandler paired hattempted hhandler) fun pending hpending => ?_
  refine pairs_then (pairs_runOptional paired hcleanup) fun c hc => ?_
  split
  · exact pairs_value hpending
  · exact pairs_value hc

theorem pairs_runModule {p : Position} {name : Name} {body : Block}
    (obeys : BlockObeys P.rule .ofModule body) :
    PairsError P n (Completion.Only P.fn) (runModule p name body i) (runModule p name body i') := by
  refine pairs_withChild paired fun m inner inner' _ child => ?_
  refine pairs_then (pairs_runBlock obeys child) fun c _ => ?_
  split
  · refine pairs_then (pairs_modify fun s s' twin => ?_) fun _ _ =>
      pairs_value Completion.only_empty
    exact twin.step (fun _ => rfl) (fun _ => rfl)
      (fun _ _ room h => P.register name h (P.own_mono room child)) fun _ => Nat.le_refl _
  · exact pairs_raise trivial

/-! ## Loops -/

theorem pairs_runRows {vars : List Name} {body : Block} {rs : List (List Value)}
    (obeys : BlockObeys P.rule cx.site body) (only : ∀ row ∈ rs, ∀ v ∈ row, v.Only P.fn) :
    PairsRaise P n (Completion.Only P.fn) (runRows vars body i cx rs)
      (runRows vars body i' cx rs) := by
  induction rs generalizing n with
  | nil => exact pairs_value Completion.only_empty
  | cons row rest ih =>
      refine pairs_then (pairs_failing pairs_checkStop) fun _ _ => ?_
      refine pairs_withChild paired fun m iteration iteration' le child => ?_
      refine pairs_then (pairs_defineAll child fun b hb => ?_) fun _ _ => ?_
      · exact only row List.mem_cons_self b.2 (List.of_mem_zip hb).2
      refine pairs_then (pairs_failing (pairs_runBlock obeys child)) fun c hc => ?_
      split
      · exact ih (P.scope_mono le paired) fun r hr => only r (List.mem_cons_of_mem _ hr)
      · exact pairs_value Completion.only_empty
      · next after => exact pairs_value (Completion.only_ofSignal (hc.2.handOn after))

theorem pairs_runForIn {vars : List Name} {iterable : Expr} {body : Block}
    (hiterable : iterable.Obeys P.rule) (obeys : BlockObeys P.rule cx.enterLoop.site body) :
    PairsRaise P n (Completion.Only P.fn) (runForIn vars iterable body i cx)
      (runForIn vars iterable body i' cx) := by
  refine pairs_then (pairs_evaluate hiterable paired) fun v hv => ?_
  refine pairs_then (M := fun rs => ∀ row ∈ rs, ∀ w ∈ row, w.Only P.fn)
    (pairs_ofExcept (fun rs h => only_rows h hv) fun _ => trivial) fun rs hrs => ?_
  exact pairs_runRows paired obeys hrs

theorem pairs_holds {condition : Option Expr} (obeys : ∀ e ∈ condition, e.Obeys P.rule) :
    PairsRaise P n (fun _ => True) (holds condition i) (holds condition i') := by
  cases condition with
  | none => exact pairs_value trivial
  | some e =>
      exact pairs_then (pairs_evaluate (obeys e rfl) paired) fun v _ => pairs_value trivial

end Blocks

theorem pairs_iterateBody {loop : LoopHead} (obeys : (Request.iterate loop).Obeys P.rule)
    (paired : P.scope n loop.scope i') :
    PairsRaise P n (Completion.Only P.fn) (iterateBody loop)
      (iterateBody { loop with scope := i' }) := by
  obtain ⟨hcondition, hupdate, hbody⟩ := obeys
  have again := pairs_iterate ⟨hcondition, hupdate, hbody⟩ paired
  refine pairs_then (pairs_failing pairs_checkStop) fun _ _ => ?_
  refine pairs_then (pairs_holds paired hcondition) fun b _ => ?_
  split
  · refine pairs_then (pairs_failing (pairs_runChild paired hbody)) fun c hc => ?_
    dsimp only
    split
    · split
      · next e he => exact pairs_then (pairs_evaluate (hupdate e he) paired) fun _ _ => again
      · exact again
    · exact pairs_value Completion.only_empty
    · next after => exact pairs_value (Completion.only_ofSignal (hc.2.handOn after))
  · exact pairs_value Completion.only_empty

section Statements
variable {cx : Context} (paired : P.scope n i i')
include paired

theorem pairs_runForClauses {init : Option Stmt} {condition update : Option Expr} {body : Block}
    (hinit : ∀ stmt ∈ init, stmt.Obeys P.rule cx.site)
    (obeys : ∀ child, (Request.iterate ⟨condition, update, body, child, cx.enterLoop⟩).Obeys
      P.rule) :
    PairsRaise P n (Completion.Only P.fn) (runForClauses init condition update body i cx)
      (runForClauses init condition update body i' cx) := by
  refine pairs_withChild paired fun m child child' _ pairedChild => ?_
  have goOn : ∀ started : Completion, started.Only P.fn → PairsRaise P m (Completion.Only P.fn)
      (if started.isNormal then iterate ⟨condition, update, body, child, cx.enterLoop⟩
        else pure (.ofSignal started.signal))
      (if started.isNormal then iterate ⟨condition, update, body, child', cx.enterLoop⟩
        else pure (.ofSignal started.signal)) := by
    intro started hstarted
    split
    · exact pairs_iterate (obeys child) (P.scope_of_own pairedChild)
    · exact pairs_value (Completion.only_ofSignal hstarted.2)
  cases init with
  | none => exact pairs_then (pairs_value Completion.only_empty) goOn
  | some stmt =>
      exact pairs_then (pairs_failing (pairs_execute (hinit stmt rfl) pairedChild)) goOn

/-- The callee and the arguments of the call that is spawned are kept for later in both states. -/
theorem pairs_runSpawn {p : Position} {e : Expr} (obeys : ∀ o ∈ e.operands, o.Obeys P.rule) :
    PairsRaise P n (Completion.Only P.fn) (runSpawn p e i) (runSpawn p e i') := by
  unfold runSpawn
  split
  · refine pairs_then (pairs_evaluateCall paired obeys) fun fvs _ => ?_
    refine pairs_then (pairs_modify fun s s' twin => ?_) fun _ _ =>
      pairs_value Completion.only_empty
    cases twin with
    | intro h' twin room => exact .intro h' twin room
  · exact pairs_raise trivial

/-! ## Statements -/

omit paired

/-- A statement of every form runs alike. -/
theorem pairs_runForm {stmt : Stmt} (own : P.own n i i') (obeys : stmt.Obeys P.rule cx.site) :
    PairsRaise P n (Completion.Only P.fn) (runForm stmt.position stmt.form i cx)
      (runForm stmt.position stmt.form i' cx) := by
  have paired : P.scope n i i' := P.scope_of_own own
  have part : ∀ e ∈ stmt.form.evaluated, e.Obeys P.rule := fun e he => obeys.evaluated he
  have block : ∀ b ∈ stmt.form.bodies cx, BlockObeys P.rule b.1.site b.2 :=
    fun b hb => obeys.bodies hb
  obtain ⟨p, form⟩ := stmt
  cases form with
  | expr e =>
      refine pairs_then (pairs_evaluate (part e List.mem_cons_self) paired) fun v hv => ?_
      exact pairs_value (Completion.only_ofValue hv)
  | ifChain branches otherwise =>
      refine pairs_runBranches paired (fun b hb => part b.condition (List.mem_map_of_mem hb))
        (fun b hb => ?_) fun b hb => ?_
      · exact block (cx, b.body) (List.mem_append_left _ (List.mem_map_of_mem hb))
      · have hmem := List.mem_map_of_mem (f := fun b => (cx, b)) (Option.mem_toList.mpr hb)
        exact block (cx, b) (List.mem_append_right _ hmem)
  | tryCatch body handler cleanup =>
      refine pairs_failing (pairs_runTry paired (block (cx, body) List.mem_cons_self)
        (fun h hh => ?_) fun b hb => ?_)
      · have hmem := List.mem_map_of_mem (f := fun h => (cx, h.body)) (Option.mem_toList.mpr hh)
        exact block (cx, h.body) (List.mem_cons_of_mem _ (List.mem_append_left _ hmem))
      · have hmem := List.mem_map_of_mem (f := fun b => (cx, b)) (Option.mem_toList.mpr hb)
        exact block (cx, b) (List.mem_cons_of_mem _ (List.mem_append_right _ hmem))
  | forIn vars iterable body =>
      exact pairs_runForIn paired (part iterable List.mem_cons_self)
        (block (cx.enterLoop, body) List.mem_cons_self)
  | forClauses init condition update body =>
      exact pairs_runForClauses paired (fun first h => obeys.start h) fun child =>
        obeys.iterate rfl child
  | loop condition body => exact pairs_iterate (obeys.iterate rfl i) paired
  | breakLoop | continueLoop =>
      unfold runForm
      dsimp only
      split
      · exact pairs_value (Completion.only_ofSignal trivial)
      · exact pairs_raise trivial
  | returnValues values =>
      unfold runForm
      dsimp only
      split
      · refine pairs_then (pairs_evaluateAll paired part) fun vs hvs => ?_
        exact pairs_value (Completion.only_ofSignal hvs)
      · exact pairs_raise trivial
  | throwValue value =>
      refine pairs_then (pairs_evaluate (part value List.mem_cons_self) paired) fun v hv => ?_
      exact pairs_value (Completion.only_ofSignal hv)
  | moduleBlock name body =>
      exact pairs_failing (pairs_runModule paired (block (.ofModule, body) List.mem_cons_self))
  | switch subject cases default =>
      refine pairs_then (pairs_evaluate (part subject List.mem_cons_self) paired) fun v _ => ?_
      rw [runCases_eq, runCases_eq]
      refine pairs_runCandidates paired (fun c hc => ?_) (fun c hc => ?_) fun b hb => ?_
      · exact part c.1 (List.mem_cons_of_mem _ (List.mem_map_of_mem hc))
      · have hmem := List.mem_map_of_mem (f := fun c => (cx, c.2.2)) hc
        exact block (cx, c.2.2) (List.mem_append_left _ hmem)
      · have hmem := List.mem_map_of_mem (f := fun b => (cx, b)) (Option.mem_toList.mpr hb)
        exact block (cx, b) (List.mem_append_right _ hmem)
  | var names values => exact pairs_runVar own part
  | assign targets op values =>
      refine pairs_runAssign paired (fun e he => part e (List.mem_append_left _ he))
        fun t ht e he => ?_
      exact part e (List.mem_append_right _ (List.mem_flatMap.mpr ⟨t, ht, he⟩))
  | assignFound targets value =>
      refine pairs_runAssignFound paired (part value List.mem_cons_self) fun t ht e he => ?_
      exact part e (List.mem_cons_of_mem _ (List.mem_flatMap.mpr ⟨t, ht, he⟩))
  | spawn e => exact pairs_runSpawn paired part

/-- A throw is the signal of its statement. -/
theorem pairs_located {p : Position} {x x' : Exec Raise Completion}
    (hx : PairsRaise P n (Completion.Only P.fn) x x') :
    PairsError P n (Completion.Only P.fn) (located p x) (located p x') := by
  intro s s' twin
  refine Resumption.Lockstep.bind ((hx s s' twin).mono fun o t o' t' ended => ?_)
  cases ended.2 with
  | ok h =>
      obtain ⟨rfl, h⟩ := h
      exact ⟨ended.1, .ok ⟨rfl, h⟩⟩
  | @raised r h =>
      cases r with
      | thrown v at? => exact ⟨ended.1, .ok ⟨rfl, Completion.only_ofSignal h⟩⟩
      | failed e => exact ⟨ended.1, .raised trivial⟩
  | panicked m => exact ⟨ended.1, .panicked m⟩

theorem pairs_executeBody {stmt : Stmt} (own : P.own n i i') (obeys : stmt.Obeys P.rule cx.site) :
    PairsError P n (Completion.Only P.fn) (executeBody stmt i cx) (executeBody stmt i' cx) :=
  pairs_located (pairs_runForm own obeys)

end Statements

end Exec

end StatementEngine
