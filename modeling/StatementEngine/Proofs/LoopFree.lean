import StatementEngine.Proofs.Frame
import StatementEngine.Proofs.Invariance
import StatementEngine.Proofs.Termination

/-!
# Scripts without condition loops

**The limit on calls bounds every script in which no loop has a condition or clauses**, those in the
bodies of functions included. Loops over a value are fine: their rows are known before they start.

No tree gets smaller at a call, since functions come from anywhere. What gets smaller is the number
of calls that may still be entered, then the size of the tree, and last, for a function of the host
that calls others, the number of arguments (`Request.rank`).

The main result is `loopFree_halts`.
-/

namespace StatementEngine

/-- No loop has a condition or clauses. -/
def Rule.loopFree : Rule where
  expr _ := True
  stmt _ stmt :=
    match stmt.form with
    | .forClauses .. | .loop .. => False
    | _ => True

theorem Stmt.Obeys.round_eq_none {stmt : Stmt} {site : Site} (h : stmt.Obeys .loopFree site) :
    stmt.form.round = none := by
  obtain ⟨p, form⟩ := stmt
  cases form with
  | forClauses | loop => exact h.here.elim
  | _ => rfl

/-- The questions that come up where no loop goes round. -/
def Request.Straight : Request → Prop
  | .evaluate .. | .call .. | .execute .. | .block .. | .drain _ => True
  | .iterate _ | .work _ | .await _ => False

/-- The size of the tree that a question is about, one more than nothing. -/
noncomputable def Request.treeSize : Request → Nat
  | .evaluate e _ => sizeOf e + 1
  | .execute stmt _ _ => sizeOf stmt + 1
  | .block body _ _ => sizeOf body + 1
  | _ => 0

/-- The calls that may still be entered, the size of the tree, the number of arguments. -/
noncomputable def Request.rank (max : Nat) (q : Request) (s : State) : Nat × Nat × Nat :=
  (max - s.callDepth, q.treeSize, q.argCount)

/-- The lexicographic order of ranks. -/
def RankLt : Nat × Nat × Nat → Nat × Nat × Nat → Prop :=
  Prod.Lex (· < ·) (Prod.Lex (· < ·) (· < ·))

theorem wellFounded_rankLt : WellFounded RankLt :=
  (Prod.lex Nat.lt_wfRel (Prod.lex Nat.lt_wfRel Nat.lt_wfRel)).wf

/-- The trees and functions of a run have no loops that go round. -/
def loopFree : Contract where
  requires q s := q.Straight ∧ q.Obeys .loopFree ∧ s.Obeys .loopFree
  promises _ s _ t := t.Obeys .loopFree ∧ t.callDepth = s.callDepth

/-- The same, below a question. -/
noncomputable abbrev loopFreeBelow (config : Config) (max : Nat) (q : Request) (s : State) :
    Contract :=
  loopFree.below config RankLt (Request.rank max) q s

/-- The states between the questions of a body, which runs at a given call depth. -/
def LoopFreeAt (depth : Nat) (s : State) : Prop := s.Obeys .loopFree ∧ s.callDepth = depth

theorem stable_loopFreeAt {depth : Nat} : Stable (LoopFreeAt depth) fun _ => True where
  newChild _ _ h := ⟨h, trivial⟩
  defineFresh _ _ _ _ _ h := h
  overwrite _ _ _ _ _ _ h := h
  register _ _ h := h
  schedule _ _ _ h := h
  tell _ _ h := h
  record _ _ h := h
  hold _ _ h := h
  note _ _ h := h

variable {config : Config} {max depth : Nat} {s : State}

/-- A question may be asked if it is below. -/
theorem loopFree_lets {p q : Request} (straight : p.Straight) (obeys : p.Obeys .loopFree)
    (lt : q.OfEngine config → p.OfEngine config →
      RankLt (max - depth, p.treeSize, p.argCount) (q.rank max s)) :
    (loopFreeBelow config max q s).Lets (LoopFreeAt depth) p := by
  intro t ht
  obtain ⟨known, rfl⟩ := ht
  exact ⟨⟨⟨straight, obeys, known⟩, lt⟩, fun a u hu => ⟨hu, trivial⟩⟩

/-- A smaller tree at the same depth is below. -/
theorem rankLt_of_part {size size' args args' : Nat} (h : size < size') :
    RankLt (max - depth, size + 1, args) (max - depth, size' + 1, args') :=
  .right _ (.left _ _ (Nat.succ_lt_succ h))

/-- The body of a call is below, since one call less may be entered. -/
theorem rankLt_of_entered {size size' args args' : Nat} (h : depth < max) :
    RankLt (max - (depth + 1), size, args) (max - depth, size', args') :=
  .left _ _ (by omega)

theorem loopFree_evaluateBody {e : Expr} (scope : ScopeId) (h : e.Obeys .loopFree) :
    Exec.Keeps (loopFreeBelow config max (.evaluate e scope) s) (LoopFreeAt s.callDepth)
      (Exec.evaluateBody e scope) := by
  refine Exec.keeps_evaluateBody (stable_loopFreeAt.at scope) (fun o ho => ?_) (fun f args => ?_)
    fun literal hl t ht => ?_
  · exact loopFree_lets trivial (h.operand ho) fun _ _ =>
      rankLt_of_part (Expr.sizeOf_operand ho)
  · exact loopFree_lets trivial trivial fun _ _ => .right _ (.left _ _ (Nat.succ_pos _))
  · subst hl
    exact ⟨ht.1.capture h.body scope, ht.2⟩

theorem loopFree_executeBody {stmt : Stmt} {cx : Context} (scope : ScopeId)
    (h : stmt.Obeys .loopFree cx.site) :
    Exec.Keeps (loopFreeBelow config max (.execute stmt scope cx) s) (LoopFreeAt s.callDepth)
      (Exec.executeBody stmt scope cx) := by
  refine Exec.keeps_executeBody stable_loopFreeAt (fun e he => ?_) (fun b hb child _ => ?_)
    (fun first hfirst child _ => ?_) (fun c u b hround i => ?_) fun name _ t v ht => ht
  · exact loopFree_lets trivial (h.evaluated he) fun _ _ =>
      rankLt_of_part (Stmt.sizeOf_evaluated he)
  · exact loopFree_lets trivial (h.bodies hb) fun _ _ =>
      rankLt_of_part (Stmt.sizeOf_bodies hb)
  · exact loopFree_lets trivial (h.start hfirst) fun _ _ =>
      rankLt_of_part (Stmt.sizeOf_start hfirst)
  · rw [h.round_eq_none] at hround
    cases hround

theorem loopFree_blockBody {body : Block} {cx : Context} (scope : ScopeId)
    (h : BlockObeys .loopFree cx.site body) :
    Exec.Keeps (loopFreeBelow config max (.block body scope cx) s) (LoopFreeAt s.callDepth)
      (Exec.blockBody body scope cx) :=
  Exec.keeps_blockBody fun stmt hstmt => loopFree_lets trivial (h stmt hstmt) fun _ _ =>
    rankLt_of_part (List.sizeOf_lt_of_mem hstmt)

/-- A call enters a body within the limit, or it is a call of a function of the host. Unless it is
left to the host, such a function hands on fewer arguments than it gets. -/
theorem loopFree_callBody (limit : config.maxCallDepth = some max) (f : FunctionRef)
    (args : List Value) :
    Exec.Keeps (loopFreeBelow config max (.call f args) s) (LoopFreeAt s.callDepth)
      (Exec.callBody config f args) := by
  refine Exec.keeps_callBody
    (J := fun t => LoopFreeAt (s.callDepth + 1) t ∧ s.callDepth < max)
    (fun t ht within => ?_) (fun t ht => ?_) stable_loopFreeAt (fun t ht => ht.1)
    (fun g vs h => ?_) ?_ fun c hc child _ t ht => ?_
  · have entered := within max limit
    rw [ht.2] at entered
    exact ⟨⟨ht.1, congrArg (· + 1) ht.2⟩, entered⟩
  · exact ⟨ht.1.1, congrArg (· - 1) ht.1.2⟩
  · exact loopFree_lets trivial trivial fun own _ => .right _ (.right _ (h.length_lt own.2))
  · exact loopFree_lets trivial trivial fun _ drain => drain.1.elim
  · have body : (loopFreeBelow config max (.call f args) s).Lets (LoopFreeAt (s.callDepth + 1))
        (.block c.literal.body child .function) :=
      loopFree_lets trivial hc fun _ _ => rankLt_of_entered ht.2
    have asked := body t ht.1
    exact ⟨asked.1, fun a u hu => ⟨⟨(asked.2 a u hu).1, ht.2⟩, trivial⟩⟩

/-- What a body asks is below its question. -/
theorem loopFree_ensures (limit : config.maxCallDepth = some max) {q : Request}
    (h : loopFree.requires q s) (opened : q.Open) :
    Resumption.Ensures (loopFreeBelow config max q s).requires loopFree.promises
      (Interpreter.bodies config q s) fun _ _ => True := by
  obtain ⟨straight, hq, hs⟩ := h
  have close : ∀ {α ε} {x : Exec ε α},
      Exec.Keeps (loopFreeBelow config max q s) (LoopFreeAt s.callDepth) x →
      Resumption.Ensures (loopFreeBelow config max q s).requires loopFree.promises (x s)
        fun _ _ => True :=
    fun hx => (hx s ⟨hs, rfl⟩).mono fun _ _ _ => trivial
  cases q with
  | evaluate e scope => exact close (loopFree_evaluateBody scope hq)
  | call f args => exact close (loopFree_callBody limit f args)
  | execute stmt scope cx => exact close (loopFree_executeBody scope hq)
  | block body scope cx => exact close (loopFree_blockBody scope hq)
  | iterate loop => exact straight.elim
  | work w | drain ran | await what => exact opened.elim

theorem loopFree_sound {q : Request} {t : State} {a : Answer q}
    (h : loopFree.requires q s)
    (answered : Resumption.Evaluates (Interpreter.bodies config) (Interpreter.bodies config q s)
      a t) : loopFree.promises q s a t :=
  ⟨(invariance_honored invariant_obeys config).answer h.2 answered,
    ((frame_honored config).answer trivial answered).callDepth⟩

/-- **The limit on calls bounds every script without condition loops.** However its functions call
each other and themselves, the script comes to an end, from every state and at every call depth,
provided that whatever it leaves to the host does. -/
theorem loopFree_halts {config : Config} (limit : config.maxCallDepth = some max) {script : Block}
    {s : State} (hscript : BlockObeys .loopFree .function script) (hs : s.Obeys .loopFree)
    (scope : ScopeId) (host : (Exec.runScript config script scope).HostHalts config s) :
    ∃ o t, Runs config (Exec.runScript config script scope) s o t := by
  have run : Exec.Keeps loopFree (LoopFreeAt s.callDepth) (Exec.runScript config script scope) := by
    refine Exec.keeps_runScript (J := LoopFreeAt (s.callDepth + 1)) (fun t ht _ => ?_)
      (fun t ht => ?_) fun t ht => ?_
    · exact ⟨ht.1, congrArg (· + 1) ht.2⟩
    · exact ⟨ht.1, congrArg (· - 1) ht.2⟩
    · exact ⟨⟨trivial, hscript, ht.1⟩, fun a u hu => ⟨⟨hu.1, hu.2.trans ht.2⟩, trivial⟩⟩
  refine Contract.halts wellFounded_rankLt (fun q u hq opened => loopFree_ensures limit hq opened)
    (fun q u a t hq => loopFree_sound hq) (fun q u hq closed => ?_) (run s ⟨hs, rfl⟩) host
  cases q with
  | drain ran => exact ⟨ran, rfl⟩
  | iterate | work | await => exact hq.1.elim
  | evaluate | call | execute | block => exact absurd trivial closed

/-- A function that calls itself, and a limit of two calls. -/
theorem loopFree_halts_recursion :
    let config : Config := ⟨some 2⟩
    let call : Expr := .call (.variable "f") []
    let f : Expr := .function ⟨"f", [], [⟨⟨2, 1⟩, .expr call⟩]⟩
    let script : Block := [⟨⟨1, 1⟩, .var ["f"] [f]⟩, ⟨⟨3, 1⟩, .expr call⟩]
    let s := (State.initial .deferred .log).newRoot
    BlockObeys .loopFree .function script ∧ s.2.Obeys .loopFree ∧
      (Exec.runScript config script s.1).HostHalts config s.2 ∧
      ∃ o t, Runs config (Exec.runScript config script s.1) s.2 o t := by
  intro config call f script s
  have hcall : call.Obeys .loopFree := by
    refine .intro trivial ?_ (by simp [call, Expr.body])
    simp only [call, Expr.operands, List.mem_singleton, forall_eq]
    exact .intro trivial (by simp [Expr.operands]) (by simp [Expr.body])
  have calling : ∀ p, Stmt.Obeys .loopFree .function ⟨p, .expr call⟩ := by
    intro p
    refine .intro trivial ?_ (by simp [Form.blocks])
    simpa [Form.expressions] using hcall
  have hf : f.Obeys .loopFree := by
    refine .intro trivial (by simp [f, Expr.operands]) ?_
    simpa [f, Expr.body] using calling _
  have hscript : BlockObeys .loopFree .function script := by
    intro stmt h
    simp only [script, List.mem_cons, List.not_mem_nil, or_false] at h
    rcases h with rfl | rfl
    · refine .intro trivial ?_ (by simp [Form.blocks])
      simpa [Form.expressions] using hf
    · exact calling _
  -- nothing has been captured yet
  have known : s.2.Obeys .loopFree := fun c hc => by simp [s, State.newRoot, State.initial] at hc
  -- the script declares and calls, the function calls again, and that call is refused
  obtain ⟨asked, o, t, run, quiet⟩ : ∃ asked o t,
      Asks config (Exec.runScript config script s.1) s.2 asked o t ∧
        ∀ q ∈ asked, ¬ q.1.LeftToHost config :=
    ⟨_, _, _, .ask (.ask (.ask (.done _ _) (.done _ _))
      (.ask (.ask (.ask (.done _ _)
        (.ask (.ask (.ask (.ask (.ask (.done _ _)
          (.ask (.done _ _) (.done _ _))) (.done _ _)) (.done _ _)) (.done _ _)) (.done _ _)))
      (.done _ _)) (.done _ _))) (.done _ _), by simp [Request.LeftToHost]⟩
  have host := Exec.hostHalts_of_asks run quiet
  exact ⟨hscript, known, host, loopFree_halts rfl hscript known s.1 host⟩

end StatementEngine
