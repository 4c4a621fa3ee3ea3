import StatementEngine.Proofs.Run.Abort
import StatementEngine.Proofs.Run.Alike
import StatementEngine.Proofs.Run.Direct

/-!
# Raising the limit on calls

**A limit matters where it refuses a call, and nowhere else.** If a script comes to its end without
the error of the limit then a host with the same functions and a higher limit, or none, has the
very same run: the answers of both hosts differ only for calls that the lower limit refuses
(`Request.Refused`), and the run does not come to such a call.

That it does not is the other half: a refusal fails, and what fails inside of a run is how the whole
run fails. No handler, no block at the end of a `try` and no loop hides it.

The main result is `limit_raised`. Tasks are a run of their own: one that hits the limit fails
without failing the script that had the queue run, so the first half is about runs that only queue
their tasks.
-/

namespace StatementEngine

/-- The question calls a captured function at a depth where the limit refuses it. -/
def Request.Refused (limit : Nat) : Request → State → Prop
  | .call (.closure id _) _, s => s.closures[id]?.isSome ∧ limit ≤ s.callDepth
  | _, _ => False

variable {limit : Nat} {higher : Option Nat} {config : Config} {s t : State} {ε α : Type}

/-! ## Where the limit does not refuse -/

theorem enterCall_of_lt {depth : Nat} (above : ∀ max ∈ higher, limit ≤ max)
    (below : depth < limit) : enterCall higher depth = .ok (depth + 1) := by
  cases h : higher with
  | none => rfl
  | some max =>
      have le : limit ≤ max := above max h
      exact if_neg (Nat.not_le_of_lt (Nat.lt_of_lt_of_le below le))

/-- What is entered below a limit is entered below a higher one, and runs the same. -/
theorem entered_eq_of_lt {refuse : EngineError → ε} {x : Exec ε α}
    (above : ∀ max ∈ higher, limit ≤ max) (below : s.callDepth < limit) :
    Exec.entered higher refuse x s = Exec.entered (some limit) refuse x s := by
  have low : enterCall (some limit) s.callDepth = .ok (s.callDepth + 1) :=
    if_neg (Nat.not_le_of_lt below)
  unfold Exec.entered
  rw [low, enterCall_of_lt above below]

/-! ## Calling a captured function -/

/-- The state in which the call of a captured function is entered: its parameters are bound in a new
scope. -/
def State.framed (s : State) (c : Closure) (args : List Value) : State :=
  let (frame, s) := s.newChild c.scope
  { s with scopes := s.scopes.defineAll frame (Exec.parameters c.literal.params args) }

/-- A captured function is called by entering its body. -/
theorem callBody_closure {id : Nat} {c : Closure} (name : Name) (args : List Value)
    (known : s.closures[id]? = some c) :
    Exec.callBody config (.closure id name) args s =
      Exec.callBlock config c.literal.body s.scopes.next (s.framed c args) := by
  show (Exec.read (fun s => s.closures[id]?) >>= _) s = _
  rw [Exec.bind_apply, Exec.read, known]
  rfl

section Hosts
-- the hosts that are compared differ in the limit, and have the same functions
variable [HostLibrary]

/-- A question that the limit does not refuse is answered as under a higher limit. -/
theorem bodies_eq_of_not_refused (above : ∀ max ∈ higher, limit ≤ max) {q : Request}
    (admitted : ¬ q.Refused limit s) :
    Interpreter.bodies ⟨some limit⟩ q s = Interpreter.bodies ⟨higher⟩ q s := by
  cases q with
  | call f args =>
      cases f with
      | closure id name =>
          show Exec.callBody ⟨some limit⟩ (.closure id name) args s =
            Exec.callBody ⟨higher⟩ (.closure id name) args s
          cases known : s.closures[id]? with
          | none =>
              unfold Exec.callBody
              simp only [Exec.bind_apply, Exec.read, Resumption.done_bind, known]
          | some c =>
              have below : s.callDepth < limit := by
                refine Nat.lt_of_not_le fun reached => admitted ⟨?_, reached⟩
                rw [known]
                rfl
              rw [callBody_closure name args known, callBody_closure name args known]
              exact (entered_eq_of_lt (s := s.framed c args) above below).symm
      | host | recorder | builtin => rfl
  | evaluate | execute | block | iterate | work | drain | await => rfl

/-! ## Where the limit refuses -/

/-- A refused call fails, and asks nothing. -/
theorem refusal_fails {q : Request} (refused : q.Refused limit s) :
    ∃ a t, Resumption.Traces (Interpreter.bodies ⟨some limit⟩)
        (Interpreter.bodies ⟨some limit⟩ q s) [] a t ∧
      Answer.Fails q (.ofKind (.recursionLimit limit)) a := by
  cases q with
  | call f args =>
      cases f with
      | closure id name =>
          obtain ⟨known, reached⟩ := refused
          obtain ⟨c, known⟩ := Option.isSome_iff_exists.mp known
          have entry : enterCall (some limit) s.callDepth = .error (.recursionLimit limit) :=
            if_pos reached
          refine ⟨.raised (.failed (.ofKind (.recursionLimit limit))), s.framed c args, ?_, rfl⟩
          show Resumption.Traces _ (Exec.callBody ⟨some limit⟩ (.closure id name) args s) _ _ _
          rw [callBody_closure name args known]
          unfold Exec.callBlock Exec.entered
          rw [show (s.framed c args).callDepth = s.callDepth from rfl, entry]
          exact .done _ _
      | host | recorder | builtin => exact refused.elim
  | evaluate | execute | block | iterate | work | drain | await => exact refused.elim

variable {script : Block} {scope : ScopeId}

/-- Where a script comes to a refused call, it ends: nothing more is asked, and the error of the
limit is the result. -/
theorem asks_of_refused {before : List (Request × State)} {q : Request} {u : State}
    (reached : Resumption.Reaches (Interpreter.bodies ⟨some limit⟩) Request.Open
      (Exec.runScript ⟨some limit⟩ script scope s) before q u)
    (refused : q.Refused limit u) :
    ∃ e t, Asks ⟨some limit⟩ (Exec.runScript ⟨some limit⟩ script scope) s (before ++ [(q, u)])
      (.raised e) t ∧ e.kind = .recursionLimit limit := by
  obtain ⟨a, t, answered, failed⟩ := refusal_fails refused
  obtain ⟨e, o, t', run, onward, rfl, -⟩ := aborts_of_reaches reached
    (Exec.passes_runScript ⟨some limit⟩ script scope s) answered failed
  exact ⟨e, t', run, onward.kind⟩

/-- A script that ends without the error of a limit ends the same under every higher limit. -/
theorem runs_of_higher (above : ∀ max ∈ higher, limit ≤ max)
    {o : Outcome EngineError Execution}
    (h : Runs ⟨some limit⟩ (Exec.runScript ⟨some limit⟩ script scope) s o t)
    (queues : (Exec.runScript ⟨some limit⟩ script scope).OnlyQueues ⟨some limit⟩ s)
    (within : ∀ e, o = .raised e → e.kind ≠ .recursionLimit limit) :
    Runs ⟨higher⟩ (Exec.runScript ⟨higher⟩ script scope) s o t := by
  -- the script itself is not refused
  have below : s.callDepth < limit := by
    refine Nat.lt_of_not_le fun reached => ?_
    rcases runs_entered_iff.mp h with ⟨max, hmax, -, rfl, -⟩ | ⟨below, -⟩
    · cases hmax
      exact within _ rfl rfl
    · exact Nat.not_lt_of_le reached (below limit rfl)
  have same : Exec.runScript ⟨higher⟩ script scope s = Exec.runScript ⟨some limit⟩ script scope s :=
    entered_eq_of_lt above below
  unfold Runs
  rw [same]
  have direct : (Exec.runScript ⟨some limit⟩ script scope).AsksDirectly :=
    Exec.compositional_asksDirectly.runScript ⟨some limit⟩ script scope
  refine Resumption.Evaluates.congr_of_reached h fun before q u reached =>
    ⟨queues.open_of_reaches direct reached, ?_⟩
  refine bodies_eq_of_not_refused above fun refused => ?_
  obtain ⟨e, t', run, kind⟩ := asks_of_refused reached refused
  exact within e (h.unique run.runs).1 kind

end Hosts

/-- **Raising the limit on calls never changes a run that did not hit it.** A script that ends with
anything but the error of the limit ends with the same outcome in the same state under every higher
limit and under none. Conversely, where the limit refuses the script itself or a call that the
script comes to, the error of the limit is the result, and nothing is asked after the refusal. -/
theorem limit_raised [HostLibrary] (limit : Nat) (script : Block) (scope : ScopeId) (s : State) :
    ((Exec.runScript ⟨some limit⟩ script scope).OnlyQueues ⟨some limit⟩ s →
      ∀ o t, Runs ⟨some limit⟩ (Exec.runScript ⟨some limit⟩ script scope) s o t →
        (∀ e, o = .raised e → e.kind ≠ .recursionLimit limit) →
        ∀ higher : Option Nat, (∀ max ∈ higher, limit ≤ max) →
          Runs ⟨higher⟩ (Exec.runScript ⟨higher⟩ script scope) s o t) ∧
    (limit ≤ s.callDepth →
      Runs ⟨some limit⟩ (Exec.runScript ⟨some limit⟩ script scope) s
        (.raised (.ofKind (.recursionLimit limit))) s) ∧
    ∀ before q u, Resumption.Reaches (Interpreter.bodies ⟨some limit⟩) Request.Open
        (Exec.runScript ⟨some limit⟩ script scope s) before q u →
      q.Refused limit u →
      ∃ e t, Asks ⟨some limit⟩ (Exec.runScript ⟨some limit⟩ script scope) s (before ++ [(q, u)])
        (.raised e) t ∧ e.kind = .recursionLimit limit := by
  refine ⟨fun queues o t run within higher above => ?_, fun reached => ?_, fun before q u => ?_⟩
  · exact runs_of_higher above run queues within
  · exact runs_entered_iff.mpr (Or.inl ⟨limit, rfl, reached, rfl, rfl⟩)
  · exact asks_of_refused

/-- A call runs the same with a limit of two and with none. With a limit of one it is refused, and
no handler around it runs. -/
theorem limit_raised_call :
    let record : Block := [⟨⟨3, 1⟩, .expr (.call (.literal (.function .recorder)) [])⟩]
    let f : Expr := .function ⟨"f", [], [⟨⟨2, 9⟩, .expr (.literal (.int 7))⟩]⟩
    let call : Stmt := ⟨⟨2, 1⟩, .expr (.call f [])⟩
    let guarded : Stmt := ⟨⟨1, 1⟩, .tryCatch [call] (some ⟨⟨2, 30⟩, none, record⟩) none⟩
    let s := (State.initial .deferred .log).newRoot
    (∃ t, Runs ⟨some 2⟩ (Exec.runScript ⟨some 2⟩ [call] s.1) s.2 (.ok ⟨some (.int 7), .none⟩) t ∧
      Runs ⟨none⟩ (Exec.runScript ⟨none⟩ [call] s.1) s.2 (.ok ⟨some (.int 7), .none⟩) t) ∧
    ∃ e t, Runs ⟨some 1⟩ (Exec.runScript ⟨some 1⟩ [guarded] s.1) s.2 (.raised e) t ∧
      e.kind = .recursionLimit 1 := by
  intro record f call guarded s
  constructor
  · obtain ⟨asked, o, t, asks, quiet⟩ : ∃ asked o t,
        Asks ⟨some 2⟩ (Exec.runScript ⟨some 2⟩ [call] s.1) s.2 asked o t ∧
          ∀ q ∈ asked, ∀ ran, q.1 ≠ .drain ran :=
      ⟨_, _, _, .ask (.ask (.ask (.ask (.done _ _) (.ask (.ask (.ask (.ask (.done _ _) (.done _ _))
        (.done _ _)) (.done _ _)) (.done _ _))) (.done _ _)) (.done _ _)) (.done _ _), by simp⟩
    obtain ⟨u, run⟩ : ∃ u, Runs ⟨some 2⟩ (Exec.runScript ⟨some 2⟩ [call] s.1) s.2
        (.ok ⟨some (.int 7), .none⟩) u := ⟨_, runs_iff_run.mpr ⟨40, rfl⟩⟩
    exact ⟨u, run, (limit_raised 2 [call] s.1 s.2).1 (Exec.onlyQueues_of_asks asks quiet) _ _ run
      (fun e he => by cases he) none fun max hmax => by cases hmax⟩
  · -- the call is the last question of five that are inside of each other
    obtain ⟨before, u, reached, known, depth⟩ : ∃ before u,
        Resumption.Reaches (Interpreter.bodies ⟨some 1⟩) Request.Open
          (Exec.runScript ⟨some 1⟩ [guarded] s.1 s.2) before (.call (.closure 0 "f") []) u ∧
        u.closures.size = 1 ∧ u.callDepth = 1 :=
      ⟨_, _, .inside trivial (.inside trivial (.inside trivial (.inside trivial (.inside trivial
        (.after (.done _ _) (.here _ _ _)))))), rfl, rfl⟩
    obtain ⟨e, t, run, kind⟩ := (limit_raised 1 [guarded] s.1 s.2).2.2 before _ u reached
      ⟨by simp [known], Nat.le_of_eq depth.symm⟩
    exact ⟨e, t, run.runs, kind⟩

end StatementEngine
