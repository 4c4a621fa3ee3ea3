import StatementEngine.Proofs.Lexical.ControlFlow
import StatementEngine.Proofs.Task.Chronicle

/-!
# Order in sessions

**What is in order stays in order, whatever the host does next.** A session is in order if all trees
that the host has run in it are (`Act.InOrder`). Then all captured functions are in order at every
moment of it, and no answer is an error about misplaced control flow (`Occurrence.Placed`). This
includes the tasks that are run one after the other when the queue is drained, and what is reported
of those that fail. Only the functions of a host fail as they please.

The main result is `runScript_placed`.
-/

namespace StatementEngine

variable {config : Config} {s t : State} {past : Chronicle} {e : Occurrence} {α : Type}

/-! ## Tasks by anybody's hand -/

/-- What tasks make of a state: they do their work, in any order and by anybody's hand. -/
inductive Later (config : Config) (s : State) : State → Prop
  | now : Later config s s
  | work {t u : State} {w : Work} {o : Outcome Raise Value} (before : Later config s t)
      (run : Runs config (Exec.doWork w) t o u) : Later config s u
  | drain {t u : State} {o : Outcome Empty Nat} (before : Later config s t)
      (run : Runs config Exec.drain t o u) : Later config s u

theorem Later.ordered {config : Config} {s t : State} (h : Later config s t) (hs : s.Ordered) :
    t.Ordered := by
  induction h with
  | now => exact hs
  | work _ run ih => exact ((Exec.placed_doWork _).runs (placement_honored config) ih run).1
  | drain _ run ih =>
      have drained : Exec.Meets placement State.Ordered (fun _ => True) (fun _ => True)
          (Exec.drain : Exec Empty Nat) := Exec.placed_drain
      exact (drained.runs (placement_honored config) ih run).1

/-! ## Occasions -/

/-- What is asked may be asked, and what is answered is as promised. Commands leave captured
functions in order. -/
def Occurrence.InOrder : Occurrence → Prop
  | .asked (.question q) s => placement.requires q s
  | .answered (.question q) s a t => placement.promises q s a t
  | .asked (.command _) s => s.Ordered
  | .answered (.command _) _ _ t => t.Ordered

/-- No error in the answer is about misplaced control flow, and neither is what is reported of a task
whose call has failed. -/
def Occurrence.Placed : Occurrence → Prop
  | .answered (.question (.evaluate ..)) _ o _ => o.Within (fun _ => True) Raise.Placed
  | .answered (.question (.call ..)) _ o _ => o.Within (fun _ => True) Raise.Placed
  | .answered (.question (.execute ..)) _ o _ => o.Within (fun _ => True) EngineError.Placed
  | .answered (.question (.block ..)) _ o _ => o.Within (fun _ => True) EngineError.Placed
  | .answered (.question (.iterate _)) _ o _ => o.Within (fun _ => True) Raise.Placed
  | .answered (.question (.work (.call ..))) _ o _ =>
    o.Within (fun _ => True) Raise.Placed ∧ ∀ r ∈ o.failure?, r.Placed
  | _ => True

/-- A failure that is reported is placed if the error that it comes from is. -/
theorem Outcome.Within.failure? {o : Outcome Raise Value}
    (h : o.Within (fun _ => True) Raise.Placed) : ∀ r ∈ o.failure?, r.Placed := by
  intro r reported
  cases o with
  | ok v => cases reported
  | raised r' =>
      have reported : (if r'.isCancelled then none else some r') = some r := reported
      split at reported
      · cases reported
      · cases reported
        exact h
  | panicked m =>
      cases reported
      exact trivial

theorem Occurrence.InOrder.placed (h : e.InOrder) : e.state.Ordered ∧ e.Placed := by
  match e with
  | .asked (.question q) s => exact ⟨h.2.2, trivial⟩
  | .asked (.command c) s | .answered (.command c) s a t => exact ⟨h, trivial⟩
  | .answered (.question (.work (.call ..))) s o t => exact ⟨h.2.1, h.2.2, h.2.2.failure?⟩
  | .answered (.question (.evaluate ..)) s o t | .answered (.question (.call ..)) s o t
  | .answered (.question (.execute ..)) s o t | .answered (.question (.block ..)) s o t
  | .answered (.question (.iterate _)) s o t => exact h.2
  | .answered (.question (.work (.perform ..))) s o t | .answered (.question (.drain _)) s o t
  | .answered (.question (.await _)) s o t => exact ⟨h.2, trivial⟩

/-- What is ensured of a computation is in order while it is watched. -/
theorem inOrder_watch {r : Asking α} {post : α → State → Prop}
    (h : Resumption.Ensures placement.requires placement.promises r post) :
    Resumption.Fits (watched config) (fun _ => Occurrence.InOrder) (watch r) past
      fun _ => post := by
  induction r generalizing past with
  | done a s => exact h
  | ask q s resume ih => exact ⟨h.1, fun inner a t _ answered => ih a t (h.2 a t answered)⟩

/-- A function of the host keeps captured functions in order. -/
theorem inOrder_performWatched {name : String} {args : List Value} {body : List TaskAction}
    (hs : s.Ordered) :
    Resumption.Fits (watched config) (fun _ => Occurrence.InOrder)
      (performWatched name args body s) past fun _ _ t => t.Ordered := by
  induction body generalizing past s with
  | nil => exact hs
  | cons action rest ih =>
      cases action with
      | command c =>
          refine ⟨hs, fun inner o t _ answered => ?_⟩
          cases o with
          | ok reply => exact ih (s := { t with log := _ }) answered
          | raised e | panicked m => exact answered
      | arguments => exact ih (s := { s with log := _ }) hs
      | finish | throw | fail | panic => exact hs

theorem inOrder_occasion (past : Chronicle) (o : Occasion) (s : State)
    (asked : Occurrence.InOrder (.asked o s)) :
    Resumption.Fits (watched config) (fun _ => Occurrence.InOrder) (watched config o s)
      (past ++ [.asked o s]) fun _ a t => Occurrence.InOrder (.answered o s a t) := by
  have honored (q : Request) (asked : placement.requires q s) :
      Resumption.Fits (watched config) (fun _ => Occurrence.InOrder)
        (watch (Interpreter.bodies config q s)) (past ++ [.asked (.question q) s])
        fun _ a t => placement.promises q s a t :=
    inOrder_watch (placement_honored config q s asked)
  cases o with
  | command c =>
      have meets : Exec.Meets placement State.Ordered (fun _ => True) (fun _ => True)
          (Exec.runCommand c : Exec Raise TaskReply) :=
        Exec.meets_runCommand Exec.placed_await Exec.placed_drain stable_obeys.toSteady c
      exact (inOrder_watch (meets s asked)).mono fun _ _ _ h => h.1
  | question q =>
      cases q with
      | work w =>
          cases w with
          | call f args => exact honored _ asked
          | perform name body args =>
              exact (inOrder_performWatched asked.2.2).mono fun _ _ _ ht => ⟨trivial, ht⟩
      | evaluate | call | execute | block | iterate | drain | await => exact honored _ asked

/-! ## Sessions -/

/-- The trees that the host has run are in order, and what else it does leaves captured functions in
order. -/
def Act.InOrder : Act → Prop
  | .script stmts _ | .body stmts _ => BlockObeys .controlFlow .function stmts
  | .block stmts _ cx => BlockObeys .controlFlow cx.site stmts
  | .statement stmt _ cx => stmt.Obeys .controlFlow cx.site
  | .evaluate e _ => e.Obeys .controlFlow
  | .arrange change _ => ∀ s : State, s.Ordered → (change s).Ordered
  | .command _ | .call .. => True

theorem inOrder_act {act : Act} (inOrder : act.InOrder) (hs : s.Ordered) :
    Resumption.Fits (watched config) (fun _ => Occurrence.InOrder) (act.perform config s) past
      fun _ _ t => t.Ordered := by
  have ended {ε α : Type} {ok : α → Prop} {bad : ε → Prop} {x : Exec ε α}
      (meets : Exec.Meets placement State.Ordered ok bad x) :
      Resumption.Fits (watched config) (fun _ => Occurrence.InOrder) (Act.perform.ended (x s)) past
        fun _ _ t => t.Ordered :=
    Resumption.fits_bind ((inOrder_watch (meets s hs)).mono fun _ _ _ h => h.1)
  cases act with
  | command c => exact ⟨hs, fun _ _ _ _ answered => answered⟩
  | script stmts scope => exact ended (Exec.placed_runScript config inOrder scope)
  | body stmts scope => exact ended (Exec.placed_callBlock config inOrder scope)
  | block stmts scope cx => exact ended (Exec.placed_block inOrder scope)
  | statement stmt scope cx => exact ended (Exec.placed_execute inOrder scope)
  | evaluate e scope => exact ended (Exec.placed_evaluate inOrder scope)
  | call f args => exact ended (Exec.placed_call f args)
  | arrange change apart => exact inOrder s hs

theorem inOrder_session {acts : List Act} (inOrder : ∀ act ∈ acts, act.InOrder) (hs : s.Ordered) :
    Resumption.Fits (watched config) (fun _ => Occurrence.InOrder) (session config acts s) past
      fun _ _ t => t.Ordered := by
  induction acts generalizing past s with
  | nil => exact hs
  | cons act rest ih =>
      obtain ⟨first, later⟩ := List.forall_mem_cons.mp inOrder
      exact Resumption.fits_bind ((inOrder_act first hs).mono fun _ _ _ ht => ih later ht)

/-- **Whatever happens in a session that is in order is in order.** -/
theorem ordered_of_session {acts : List Act} (inOrder : ∀ act ∈ acts, act.InOrder)
    (hs : s.Ordered) (shown : Resumption.Shows (watched config) (session config acts s) past e) :
    e.state.Ordered ∧ e.Placed := by
  have fits : Resumption.Fits (watched config) (fun _ => Occurrence.InOrder)
      (session config acts s) [] fun _ _ t => t.Ordered := inOrder_session inOrder hs
  exact (Resumption.fits_sound inOrder_occasion shown fits).placed

/-! ## Scripts and what they leave behind -/

/-- **Order in a tree is order in its runs.** A script in which everything stands where it may never
fails with an error about misplaced control flow. The functions that it leaves behind are in order
as well, so no task that calls one of them will ever fail like that: neither if it is run by itself,
nor in a session in which the host runs the queue, calls functions and has other trees in order
run. -/
theorem runScript_placed {script : Block} {scope : ScopeId}
    {o : Outcome EngineError Execution} (hscript : BlockObeys .controlFlow .function script)
    (hs : s.Ordered) (h : Runs config (Exec.runScript config script scope) s o t) :
    o.Within (fun _ => True) EngineError.Placed ∧ t.Ordered ∧
      (∀ u, Later config t u → u.Ordered ∧
        ∀ f args p v, Runs config (Exec.doWork (.call f args)) u p v →
          p.Within (fun _ => True) Raise.Placed) ∧
      ∀ acts, (∀ act ∈ acts, Act.InOrder act) → ∀ (past : Chronicle) (e : Occurrence),
        Resumption.Shows (watched config) (session config acts t) past e →
          e.state.Ordered ∧ e.Placed := by
  have run := (Exec.placed_runScript config hscript scope).runs (placement_honored config) hs h
  refine ⟨run.2.mono (fun _ _ => trivial) fun _ h => h, run.1, fun u hu => ?_,
    fun acts inOrder past e shown => ordered_of_session inOrder run.1 shown⟩
  have hu' : u.Ordered := hu.ordered run.1
  refine ⟨hu', fun f args p v hcall => ?_⟩
  rw [runs_doWork_iff] at hcall
  exact ((Exec.placed_call f args).runs (placement_honored config) hu' hcall).2

/-- A function that leaves a loop and returns, called by the script that it is written in. -/
theorem runScript_placed_call :
    let loop : Stmt := ⟨⟨1, 9⟩, .loop none [⟨⟨2, 3⟩, .breakLoop⟩]⟩
    let f : Expr := .function ⟨"f", [], [loop, ⟨⟨3, 1⟩, .returnValues []⟩]⟩
    let script : Block := [⟨⟨1, 1⟩, .expr (.call f [])⟩]
    let s := (State.initial .deferred .log).newRoot
    BlockObeys .controlFlow .function script ∧ s.2.Ordered ∧
      ∃ t, Runs .standard (Exec.runScript .standard script s.1) s.2 (.ok ⟨some .nil, .none⟩) t ∧
        t.Ordered := by
  intro loop f script s
  have leaf : ∀ (site : Site) (p : Position), site.inLoop = true →
      Stmt.Obeys .controlFlow site ⟨p, .breakLoop⟩ := by
    intro site p h
    exact .intro h (by simp [Form.expressions]) (by simp [Form.blocks])
  have hloop : loop.Obeys .controlFlow .function := by
    refine .intro trivial (by simp [loop, Form.expressions]) ?_
    simp only [loop, Form.blocks, List.mem_singleton, forall_eq]
    exact leaf _ _ rfl
  have hf : f.Obeys .controlFlow := by
    refine .intro trivial (by simp [f, Expr.operands]) ?_
    simp only [f, Expr.body, List.mem_cons, List.not_mem_nil, or_false, forall_eq_or_imp, forall_eq]
    exact ⟨hloop, .intro rfl (by simp [Form.expressions]) (by simp [Form.blocks])⟩
  have hscript : BlockObeys .controlFlow .function script := by
    intro stmt h
    obtain rfl := List.mem_singleton.mp h
    refine .intro trivial ?_ (by simp [Form.blocks])
    simp only [Form.expressions, List.mem_singleton, forall_eq]
    refine .intro trivial ?_ (by simp [Expr.body])
    simpa [Expr.operands] using hf
  -- nothing has been captured yet
  have ordered : s.2.Ordered := fun c hc => by simp [s, State.newRoot, State.initial] at hc
  obtain ⟨t, run⟩ : ∃ t, Runs .standard (Exec.runScript .standard script s.1) s.2
      (.ok ⟨some .nil, .none⟩) t := ⟨_, runs_iff_run.mpr ⟨40, rfl⟩⟩
  exact ⟨hscript, ordered, t, run, (runScript_placed hscript ordered run).2.1⟩

end StatementEngine
