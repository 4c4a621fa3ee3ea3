import StatementEngine.Proofs.Contexts.InStep
import StatementEngine.Proofs.Lexical.ControlFlow
import StatementEngine.Proofs.Run.Abort
import StatementEngine.Proofs.Run.Alike

/-!
# A context only ever rejects

**A laxer context lets more pass, and changes nothing else.** If a run is not rejected for misplaced
control flow then it is the run under every laxer context (`Context.AsStrictAs`): it ends the same,
in the same state. And what a run under the laxer context ends with is what it ends with under the
stricter one, unless that rejects it. Nothing is said about how far a rejected run would have gone:
where a `breakLoop` is accepted, the blocks at the end of all the `try` around it still run.

Two computations in step (`Exec.InStep`) part only at a statement that the stricter context rejects.
There the stricter run fails, and a failure inside of a run is how the whole run fails (`Strict`).
So the two runs are compared question by question, and the first one either keeps up to the end or
ends with an error about misplaced control flow (`misplaced_or_evaluates`).

Contexts of which neither is stricter have the same site (`Context.SameSite`), and nothing that runs
can tell them apart. In particular the count of loops only matters by being zero or not.

The main result is `contexts_only_reject`.
-/

namespace StatementEngine

namespace Context

/-- The second context lets pass whatever the first one does. -/
structure AsStrictAs (cx cx' : Context) : Prop where
  inLoop : cx.inLoop = true → cx'.inLoop = true
  callable : cx.callable = true → cx'.callable = true

/-- The contexts let the same pass. -/
abbrev SameSite (cx cx' : Context) : Prop := cx'.site = cx.site

variable {cx cx' : Context}

theorem inLoop_enterLoop (cx : Context) : cx.enterLoop.inLoop = true :=
  congrArg Site.inLoop cx.site_enterLoop

theorem AsStrictAs.enterLoop (h : cx.AsStrictAs cx') : cx.enterLoop.AsStrictAs cx'.enterLoop where
  inLoop _ := cx'.inLoop_enterLoop
  callable := h.callable

theorem SameSite.enterLoop (h : cx.SameSite cx') : cx.enterLoop.SameSite cx'.enterLoop := by
  rw [SameSite, site_enterLoop, site_enterLoop, h]

/-- A host that takes over all signals rejects nothing. -/
theorem asStrictAs_handedOver (cx : Context) : cx.AsStrictAs .handedOver where
  inLoop _ := rfl
  callable _ := rfl

/-- Of the loops around it a site only shows whether there are any. -/
theorem sameSite_of_loopDepth (loops : cx.loopDepth = 0 ↔ cx'.loopDepth = 0)
    (callable : cx.callable = cx'.callable) : cx.SameSite cx' := by
  have inLoop : cx'.inLoop = cx.inLoop := by
    refine decide_eq_decide.mpr ?_
    rw [Nat.pos_iff_ne_zero, Nat.pos_iff_ne_zero]
    exact not_congr loops.symm
  rw [SameSite, site, site, inLoop, callable]

/-- A context many loops further in has the site of one that counts all of them. -/
theorem sameSite_nested (loops : Nat) (cx : Context) :
    (Nat.repeat enterLoop loops cx).SameSite { cx with loopDepth := cx.loopDepth + loops } := by
  induction loops with
  | zero => rfl
  | succ n ih =>
      have counted :
          ({ cx with loopDepth := cx.loopDepth + (n + 1) } : Context).inLoop = true :=
        decide_eq_true (Nat.succ_pos _)
      rw [SameSite, Nat.repeat, site_enterLoop, ← ih, site, counted]
      rfl

end Context

/-! ## Where the contexts part -/

namespace Form

variable {cx cx' : Context}

theorem judgedAlike_of_sameSite (h : cx.SameSite cx') (form : Form) : form.JudgedAlike cx cx' := by
  cases form with
  | breakLoop | continueLoop => exact congrArg Site.inLoop h
  | returnValues values => exact congrArg Site.callable h
  | _ => trivial

/-- What the stricter context lets pass, both do. -/
theorem judgedAlike_of_accepted (h : cx.AsStrictAs cx') {stmt : Stmt}
    (accepted : Rule.controlFlow.stmt cx.site stmt) : stmt.form.JudgedAlike cx cx' := by
  obtain ⟨p, form⟩ := stmt
  cases form with
  | breakLoop | continueLoop =>
      have inLoop : cx.inLoop = true := accepted
      exact (h.inLoop inLoop).trans inLoop.symm
  | returnValues values =>
      have callable : cx.callable = true := accepted
      exact (h.callable callable).trans callable.symm
  | _ => trivial

end Form

/-- A statement that may not stand where it stands fails at once, and changes nothing. -/
theorem executeBody_of_rejected {cx : Context} {stmt : Stmt}
    (rejected : ¬ Rule.controlFlow.stmt cx.site stmt) (scope : ScopeId) (s : State) :
    ∃ e, Exec.executeBody stmt scope cx s = .done (.raised e) s ∧ ¬ e.Placed := by
  obtain ⟨p, form⟩ := stmt
  have ends : ∀ k : ErrorKind, ¬ k.Placed →
      Exec.runForm p form scope cx = Exec.raise (.failed ((EngineError.ofKind k).locate p)) →
      ∃ e, Exec.executeBody ⟨p, form⟩ scope cx s = .done (.raised e) s ∧ ¬ e.Placed := by
    intro k misplaced raises
    refine ⟨((EngineError.ofKind k).locate p).fillPosition p, ?_, misplaced⟩
    unfold Exec.executeBody
    rw [raises]
    rfl
  cases form with
  | breakLoop => exact ends .breakOutsideLoop id (if_neg rejected)
  | continueLoop => exact ends .continueOutsideLoop id (if_neg rejected)
  | returnValues values => exact ends .returnOutsideFunction id (if_neg rejected)
  | _ => exact absurd trivial rejected

/-- How the answers to two related questions compare. -/
inductive AnswersCompare (config : Config) (s : State) : Request → Request → Prop
  /-- It is one question. -/
  | same (q : Request) : AnswersCompare config s q q
  /-- The answer to the first one is a rejection. -/
  | rejected {q q' : Request} {e : EngineError} {a : Answer q} (opened : q.Open)
      (ended : Interpreter.bodies config q s = .done a s) (fails : Answer.Fails q e a)
      (misplaced : ¬ e.Placed) : AnswersCompare config s q q'
  /-- Both are answered in step. -/
  | inStep {q q' : Request} (opened : q.Open)
      (both : Resumption.Lockstep (Request.Asked Context.AsStrictAs) Answer.Same
        (Interpreter.bodies config q s) (Interpreter.bodies config q' s) (Answer.Same q s q' s)) :
      AnswersCompare config s q q'

theorem answersCompare (config : Config) {q q' : Request}
    (recast : q.Recast Context.AsStrictAs q') (s : State) : AnswersCompare config s q q' := by
  cases recast with
  | same => exact .same q
  | @execute cx cx' related stmt scope =>
      by_cases accepted : Rule.controlFlow.stmt cx.site stmt
      · have alike := Form.judgedAlike_of_accepted related accepted
        have both := Exec.inStep_executeBody related related.enterLoop stmt alike scope s
        exact .inStep trivial (Exec.lockstep_answers both)
      · obtain ⟨e, ended, misplaced⟩ := executeBody_of_rejected accepted scope s
        exact .rejected trivial ended rfl misplaced
  | block related body scope =>
      exact .inStep trivial (Exec.lockstep_answers (Exec.inStep_blockBody related body scope s))
  | iterate related =>
      exact .inStep trivial (Exec.lockstep_answers (Exec.inStep_iterateBody related s))

/-! ## Two runs, question by question -/

variable {config : Config} {s t : State}

/-- An error about misplaced control flow is one about it all the way out. -/
theorem EngineError.Onward.not_placed {e e' : EngineError} (h : e.Onward e')
    (misplaced : ¬ e.Placed) : ¬ e'.Placed := by
  rw [EngineError.Placed, h.kind]
  exact misplaced

/-- If a question is rejected then the strict computation that asks it ends, and is rejected. -/
theorem ends_of_misplaced {α : Type} {q : Request} {resume : Answer q → State → Asking α}
    {fails : EngineError → α → Prop} {e : EngineError} {a : Answer q}
    (strict : Strict fails (.ask q s resume)) (failed : Answer.Fails q e a)
    (misplaced : ¬ e.Placed) (t : State) :
    ∃ e' b t', resume a t = .done b t' ∧ fails e' b ∧ ¬ e'.Placed := by
  obtain ⟨e', b, t', ended, onward, hb, -⟩ := strict.1 a e t failed
  exact ⟨e', b, t', ended, hb, onward.not_placed misplaced⟩

/-- If the first of two computations in step ends then it is rejected, or the second one ends as
well, and the ends are related. -/
theorem misplaced_or_evaluates {α : Type} {r : Asking α} {a : α}
    (h : Resumption.Evaluates (Interpreter.bodies config) r a t) :
    ∀ {β : Type} {r' : Asking β} {fails : EngineError → α → Prop}
      {post : α → State → β → State → Prop}, Strict fails r →
      Resumption.Lockstep (Request.Asked Context.AsStrictAs) Answer.Same r r' post →
      (∃ e, fails e a ∧ ¬ e.Placed) ∨
        ∃ b t', Resumption.Evaluates (Interpreter.bodies config) r' b t' ∧ post a t b t' := by
  induction h with
  | done a s =>
      intro β r' fails post _ both
      cases r' with
      | done b t' => exact Or.inr ⟨b, t', .done b t', both⟩
      | ask q' s' resume' => exact both.elim
  | @ask α q s s' t resume b a answered resumed ihq ihr =>
      intro β r' fails post strict both
      cases r' with
      | done c t' => exact both.elim
      | ask q' u resume' =>
          obtain ⟨⟨recast, rfl⟩, goOn⟩ := both
          -- what the question is answered with decides
          have reply : (∃ e, Answer.Fails q e b ∧ ¬ e.Placed) ∨
              ∃ b' s'', Resumption.Evaluates (Interpreter.bodies config)
                (Interpreter.bodies config q' u) b' s'' ∧ HEq b' b ∧ s'' = s' := by
            cases answersCompare config recast u with
            | same => exact Or.inr ⟨b, s', answered, HEq.rfl, rfl⟩
            | rejected opened ended failed misplaced =>
                rw [ended] at answered
                obtain ⟨rfl, -⟩ := Resumption.evaluates_done_iff.mp answered
                exact Or.inl ⟨_, failed, misplaced⟩
            | inStep opened inside => exact ihq (strict_bodies config opened u) inside
          rcases reply with ⟨e, failed, misplaced⟩ | ⟨b', s'', answered', same⟩
          · obtain ⟨e', c, t', ended, hc, misplaced⟩ :=
              ends_of_misplaced strict failed misplaced s'
            rw [ended] at resumed
            obtain ⟨rfl, -⟩ := Resumption.evaluates_done_iff.mp resumed
            exact Or.inl ⟨e', hc, misplaced⟩
          · rcases ihr (strict.2 b s') (goOn b s' b' s'' same) with lost | ⟨c, t', resumed', ended⟩
            · exact Or.inl lost
            · exact Or.inr ⟨c, t', .ask answered' resumed', ended⟩

/-- If the second of two computations in step ends then the first one ends as well: either it is
rejected, or the ends are related. -/
theorem misplaced_or_evaluates_right {β : Type} {r' : Asking β} {b : β}
    (h : Resumption.Evaluates (Interpreter.bodies config) r' b t) :
    ∀ {α : Type} {r : Asking α} {fails : EngineError → α → Prop}
      {post : α → State → β → State → Prop}, Strict fails r →
      Resumption.Lockstep (Request.Asked Context.AsStrictAs) Answer.Same r r' post →
      ∃ a t', Resumption.Evaluates (Interpreter.bodies config) r a t' ∧
        ((∃ e, fails e a ∧ ¬ e.Placed) ∨ post a t' b t) := by
  induction h with
  | done b t =>
      intro α r fails post _ both
      cases r with
      | done a s => exact ⟨a, s, .done a s, Or.inr both⟩
      | ask q s resume => exact both.elim
  | @ask β q' s s' t resume' b' c answered resumed ihq ihr =>
      intro α r fails post strict both
      cases r with
      | done a t' => exact both.elim
      | ask q u resume =>
          obtain ⟨⟨recast, rfl⟩, goOn⟩ := both
          have reply : ∃ b s'', Resumption.Evaluates (Interpreter.bodies config)
              (Interpreter.bodies config q s) b s'' ∧
              ((∃ e, Answer.Fails q e b ∧ ¬ e.Placed) ∨ HEq b' b ∧ s' = s'') := by
            cases answersCompare config recast s with
            | same => exact ⟨b', s', answered, Or.inr ⟨HEq.rfl, rfl⟩⟩
            | rejected opened ended failed misplaced =>
                rw [ended]
                exact ⟨_, s, .done _ s, Or.inl ⟨_, failed, misplaced⟩⟩
            | inStep opened inside => exact ihq (strict_bodies config opened s) inside
          obtain ⟨b, s'', answered', ⟨e, failed, misplaced⟩ | same⟩ := reply
          · obtain ⟨e', a, t', ended, ha, misplaced⟩ :=
              ends_of_misplaced strict failed misplaced s''
            refine ⟨a, t', .ask answered' ?_, Or.inl ⟨e', ha, misplaced⟩⟩
            rw [ended]
            exact .done a t'
          · obtain ⟨a, t', resumed', ended⟩ := ihr (strict.2 b s'') (goOn b s'' b' s' same)
            exact ⟨a, t', .ask answered' resumed', ended⟩

/-! ## Blocks and statements -/

/-- The first computation does what the second one does, or it is rejected. -/
structure Exec.OnlyRejects (config : Config) (x y : Exec EngineError Completion) : Prop where
  /-- Where the first one ends without being rejected, the second one ends the same. -/
  accepted {s t : State} {o : Outcome EngineError Completion} : Runs config x s o t →
    o.Within (fun _ => True) EngineError.Placed → Runs config y s o t
  /-- Where the second one ends, the first one ends the same, or it ends by being rejected. -/
  otherwise {s t : State} {o : Outcome EngineError Completion} : Runs config y s o t →
    Runs config x s o t ∨ ∃ e u, Runs config x s (.raised e) u ∧ ¬ e.Placed

namespace Exec.InStep

theorem onlyRejects {x y : Exec EngineError Completion} (h : x.InStep Context.AsStrictAs y)
    (strict : x.Passes id) : x.OnlyRejects config y where
  accepted run placed := by
    rcases misplaced_or_evaluates run (strict _) (h _) with
      ⟨e, rfl, misplaced⟩ | ⟨o', t', run', rfl, rfl⟩
    · exact absurd placed misplaced
    · exact run'
  otherwise run := by
    obtain ⟨o, t', run', ⟨e, rfl, misplaced⟩ | ⟨rfl, rfl⟩⟩ :=
      misplaced_or_evaluates_right run (strict _) (h _)
    · exact Or.inr ⟨e, t', run', misplaced⟩
    · exact Or.inl run'

/-- Where neither context is stricter there is nothing to reject. -/
theorem alike {ε α : Type} {x y : Exec ε α} (h : x.InStep Context.SameSite y) :
    x.Alike config y := by
  have each : ∀ q s q' s', Request.Asked Context.SameSite q s q' s' →
      Resumption.Lockstep (Request.Asked Context.SameSite) Answer.Same
        (Interpreter.bodies config q s) (Interpreter.bodies config q' s')
        (Answer.Same q s q' s') := by
    intro q s q' s' asked
    obtain ⟨recast, rfl⟩ := asked
    cases recast with
    | same => exact lockstep_answers (lockstep_self _)
    | execute related stmt scope =>
        have judged := Form.judgedAlike_of_sameSite related stmt.form
        exact lockstep_answers
          (inStep_executeBody related related.enterLoop stmt judged scope s')
    | block related body scope => exact lockstep_answers (inStep_blockBody related body scope s')
    | iterate related => exact lockstep_answers (inStep_iterateBody related s')
  intro s o t
  constructor
  · intro run
    obtain ⟨_, _, run', rfl, rfl⟩ := Resumption.Lockstep.evaluates each run (h s)
    exact run'
  · intro run
    obtain ⟨_, _, run', rfl, rfl⟩ := Resumption.Lockstep.evaluates_right each (h s) run
    exact run'

end Exec.InStep

/-- What it means that contexts do nothing but reject. -/
structure ContextsOnlyReject (config : Config) : Prop where
  /-- A block does under a stricter context what it does under a laxer one, or it is rejected. -/
  block {cx cx' : Context} (stricter : cx.AsStrictAs cx') (body : Block) (scope : ScopeId) :
    (Exec.runBlock body scope cx).OnlyRejects config (Exec.runBlock body scope cx')
  /-- So does a statement. -/
  statement {cx cx' : Context} (stricter : cx.AsStrictAs cx') (stmt : Stmt) (scope : ScopeId) :
    (Exec.execute stmt scope cx).OnlyRejects config (Exec.execute stmt scope cx')
  /-- The count of loops only matters by being zero or not, even for runs that are rejected. -/
  blockDepth {cx cx' : Context} (loops : cx.loopDepth = 0 ↔ cx'.loopDepth = 0)
    (callable : cx.callable = cx'.callable) (body : Block) (scope : ScopeId) :
    (Exec.runBlock body scope cx).Alike config (Exec.runBlock body scope cx')
  statementDepth {cx cx' : Context} (loops : cx.loopDepth = 0 ↔ cx'.loopDepth = 0)
    (callable : cx.callable = cx'.callable) (stmt : Stmt) (scope : ScopeId) :
    (Exec.execute stmt scope cx).Alike config (Exec.execute stmt scope cx')
  /-- So it does not matter that loops are counted up to a limit. -/
  nested (loops : Nat) (cx : Context) (body : Block) (scope : ScopeId) :
    (Exec.runBlock body scope (Nat.repeat Context.enterLoop loops cx)).Alike config
      (Exec.runBlock body scope { cx with loopDepth := cx.loopDepth + loops })
  /-- What a call, a module or any other context accepts does the same if its signals are handed
  over to the host. -/
  blockHandedOver (cx : Context) (body : Block) (scope : ScopeId) :
    (Exec.runBlock body scope cx).OnlyRejects config (Exec.runBlock body scope .handedOver)
  statementHandedOver (cx : Context) (stmt : Stmt) (scope : ScopeId) :
    (Exec.execute stmt scope cx).OnlyRejects config (Exec.execute stmt scope .handedOver)

/-- **A context only ever rejects**, whatever runs under it, wherever and from whichever state. -/
theorem contexts_only_reject (config : Config) : ContextsOnlyReject config := by
  have block {cx cx' : Context} (stricter : cx.AsStrictAs cx') (body : Block) (scope : ScopeId) :
      (Exec.runBlock body scope cx).OnlyRejects config (Exec.runBlock body scope cx') :=
    (Exec.inStep_runBlock stricter body scope).onlyRejects (Exec.passes_runBlock body scope cx)
  have statement {cx cx' : Context} (stricter : cx.AsStrictAs cx') (stmt : Stmt)
      (scope : ScopeId) :
      (Exec.execute stmt scope cx).OnlyRejects config (Exec.execute stmt scope cx') :=
    (Exec.inStep_execute stricter stmt scope).onlyRejects (Exec.passes_execute stmt scope cx)
  exact {
    block := block
    statement := statement
    blockDepth := fun loops callable body scope =>
      (Exec.inStep_runBlock (Context.sameSite_of_loopDepth loops callable) body scope).alike
    statementDepth := fun loops callable stmt scope =>
      (Exec.inStep_execute (Context.sameSite_of_loopDepth loops callable) stmt scope).alike
    nested := fun loops cx body scope =>
      (Exec.inStep_runBlock (Context.sameSite_nested loops cx) body scope).alike
    blockHandedOver := fun cx => block cx.asStrictAs_handedOver
    statementHandedOver := fun cx => statement cx.asStrictAs_handedOver }

/-- A `breakLoop` in a `try` inside of a loop does the same in a call as for a host. Without the loop
the call rejects it, and the block at the end of the `try` does not run; for the host it does. -/
theorem contexts_only_reject_cleanup :
    let record : Block := [⟨⟨3, 1⟩, .expr (.call (.literal (.function .recorder)) [])⟩]
    let leaving : Stmt := ⟨⟨1, 9⟩, .tryCatch [⟨⟨2, 3⟩, .breakLoop⟩] none (some record)⟩
    let loop : Stmt := ⟨⟨1, 1⟩, .loop none [leaving]⟩
    let s := (State.initial .deferred .log).newRoot
    (∃ t, Runs .standard (Exec.runBlock [loop] s.1 .function) s.2 (.ok .empty) t ∧
      Runs .standard (Exec.runBlock [loop] s.1 .handedOver) s.2 (.ok .empty) t ∧
      t.recorded.size = 1) ∧
    (∃ c t, Runs .standard (Exec.runBlock [leaving] s.1 .handedOver) s.2 (.ok c) t ∧
      c.signal = .breakLoop ∧ t.recorded.size = 1) ∧
    ∃ e t, Runs .standard (Exec.runBlock [leaving] s.1 .function) s.2 (.raised e) t ∧
      ¬ e.Placed ∧ t.recorded.size = 0 := by
  intro record leaving loop s
  refine ⟨?_, ?_, ?_⟩
  · obtain ⟨t, run, recorded⟩ : ∃ t, Runs .standard (Exec.runBlock [loop] s.1 .function) s.2
        (.ok .empty) t ∧ t.recorded.size = 1 := ⟨_, runs_iff_run.mpr ⟨40, rfl⟩, rfl⟩
    have handedOver := (contexts_only_reject .standard).blockHandedOver .function [loop] s.1
    exact ⟨t, run, handedOver.accepted run trivial, recorded⟩
  · exact ⟨_, _, runs_iff_run.mpr ⟨40, rfl⟩, rfl, rfl⟩
  · exact ⟨_, _, runs_iff_run.mpr ⟨40, rfl⟩, id, rfl⟩

end StatementEngine
