import StatementEngine.Proofs.Contract.Statements

/-!
# Contracts of calls and tasks

A call and a task change where the engine is (the call depth, the running task) and change it back
whatever happens in between, so their rules have a second invariant for the time in between.

Nothing that goes wrong in a task leaves it: a task is settled, and its failure is reported.
-/

namespace StatementEngine

/-- Of the signals, a script itself only hands out a return. -/
def Execution.Handed (r : Execution) : Prop :=
  r.signal = .none ∨ ∃ vs, r.signal = .returned vs

/-- The function of the host behind a reference. There is none behind the builtins that look at the
engine. -/
def FunctionRef.hostFunction? (config : Config) : FunctionRef → Option HostFunction
  | .host id _ => some (config.host.function id)
  | .builtin .throwAt => some (.throwing ⟨77, 7⟩)
  | .builtin .panic => some .panicking
  | .builtin .invoke => some .invoking
  | _ => none

/-- Called with these arguments, the function of the host may call the other function. -/
def FunctionRef.MayCall (config : Config) (args : List Value) (f g : FunctionRef)
    (vs : List Value) : Prop :=
  ∃ h ∈ f.hostFunction? config, ∃ next, (h.run args).ComesTo (.call g vs next)

namespace Exec

variable {A : Contract} {I J : State → Prop} {fresh : ScopeId → Prop} {α ε : Type}

/-! ## Entering and leaving -/

theorem enterCall_eq_ok {limit : Option Nat} {depth d : Nat} (h : enterCall limit depth = .ok d) :
    d = depth + 1 ∧ ∀ max ∈ limit, depth < max := by
  unfold enterCall at h
  split at h
  · next max =>
    split at h
    · cases h
    · next hle =>
      cases h
      refine ⟨rfl, fun m hm => ?_⟩
      cases hm
      exact Nat.lt_of_not_le hle
  · cases h
    exact ⟨rfl, fun m hm => by cases hm⟩

theorem enterCall_eq_error {limit : Option Nat} {depth : Nat} {k : ErrorKind}
    (h : enterCall limit depth = .error k) :
    ∃ max, limit = some max ∧ max ≤ depth ∧ k = .recursionLimit max := by
  unfold enterCall at h
  split at h
  · next max =>
    split at h
    · next hle =>
      cases h
      exact ⟨max, rfl, hle, rfl⟩
    · cases h
  · cases h

/-- A computation is refused as a call, or it runs with one more call entered. -/
theorem entered_cases (limit : Option Nat) (refuse : EngineError → ε) (x : Exec ε α) (s : State) :
    (∃ max, limit = some max ∧ max ≤ s.callDepth ∧
      entered limit refuse x s = .done (.raised (refuse (.ofKind (.recursionLimit max)))) s) ∨
    ((∀ max ∈ limit, s.callDepth < max) ∧
      entered limit refuse x s = x.thenAlways (fun t => { t with callDepth := t.callDepth - 1 })
        { s with callDepth := s.callDepth + 1 }) := by
  unfold entered
  cases entry : enterCall limit s.callDepth with
  | error k =>
      obtain ⟨max, hmax, hle, rfl⟩ := enterCall_eq_error entry
      exact Or.inl ⟨max, hmax, hle, rfl⟩
  | ok d =>
      obtain ⟨rfl, within⟩ := enterCall_eq_ok entry
      exact Or.inr ⟨within, rfl⟩

/-- What holds in between holds with one more call entered, which is within the limit. -/
theorem meets_entered {ok : α → Prop} {bad : ε → Prop} {limit : Option Nat}
    {refuse : EngineError → ε} {x : Exec ε α} (hx : Meets A J ok bad x)
    (refused : ∀ max, bad (refuse (.ofKind (.recursionLimit max))))
    (enter : ∀ s, I s → (∀ max ∈ limit, s.callDepth < max) →
      J { s with callDepth := s.callDepth + 1 })
    (leave : ∀ t, J t → I { t with callDepth := t.callDepth - 1 }) :
    Meets A I ok bad (entered limit refuse x) := by
  intro s hs
  rcases entered_cases limit refuse x s with ⟨max, -, -, refusal⟩ | ⟨within, entry⟩
  · rw [refusal]
    exact ⟨hs, refused max⟩
  · -- the state to come back to does not matter, only that one call less is entered
    rw [entry, thenAlways, Resumption.ensures_bind]
    exact (hx _ (enter s hs within)).mono fun o t ht => ⟨leave t ht.1, ht.2⟩

/-! ## Calls -/

section Calls
variable {inner : Signal → Prop} {bad : Raise → Prop} {badError : EngineError → Prop}
variable (plain : ∀ k, ErrorKind.IsPlain k → bad (.ofKind k))
variable (lift : ∀ e, badError e → bad (.failed e))
variable (thrown : ∀ v p, inner (.thrown v p) → bad (.thrown v (some p)))
variable (noBreak : inner .breakLoop → bad (.ofKind .breakOutsideLoop))
variable (noContinue : inner .continueLoop → bad (.ofKind .continueOutsideLoop))

include thrown noBreak noContinue in
theorem meets_callResult {c : Completion} (hc : Signaling inner c) :
    Meets A I (fun _ => True) bad (callResult c) := by
  unfold Signaling at hc
  unfold callResult
  split
  · exact meets_pure trivial
  · exact meets_pure trivial
  · next v p h => exact meets_raise (thrown v p (h ▸ hc))
  · next h => exact meets_raise (noBreak (h ▸ hc))
  · next h => exact meets_raise (noContinue (h ▸ hc))

variable {config : Config} (enter : ∀ s, I s → (∀ max ∈ config.maxCallDepth, s.callDepth < max) →
  J { s with callDepth := s.callDepth + 1 })
variable (leave : ∀ t, J t → I { t with callDepth := t.callDepth - 1 })
include plain lift thrown noBreak noContinue enter leave

theorem meets_callBlock {body : Block} {scope : ScopeId}
    (hbody : Meets A J (Signaling inner) badError (runBlock body scope .function)) :
    Meets A I (fun _ => True) bad (callBlock config body scope) := by
  refine meets_entered (meets_bind (meets_failing hbody lift) fun c hc => ?_)
    (fun max => plain _ trivial) enter leave
  exact meets_callResult thrown noBreak noContinue hc

theorem meets_callClosure (hI : Stable I fresh) {c : Closure} {args : List Value}
    (hbody : ∀ frame, fresh frame →
      Meets A J (Signaling inner) badError (runBlock c.literal.body frame .function)) :
    Meets A I (fun _ => True) bad (callClosure config c args) := by
  refine meets_withChild (hI.at c.scope) fun frame => ?_
  refine meets_bind (meets_defineChild (hI.at c.scope) frame _) fun _ _ => meets_inner ?_
  intro hframe
  exact meets_callBlock plain lift thrown noBreak noContinue enter leave (hbody frame hframe)

end Calls

/-! ## Scripts -/

section Scripts
variable {inner : Signal → Prop} {bad : EngineError → Prop}
variable (uncaught : ∀ v p, inner (.thrown v p) →
  bad ((EngineError.ofKind (.uncaughtThrow v)).locate p))
variable (noBreak : inner .breakLoop → bad (.ofKind .breakOutsideLoop))
variable (noContinue : inner .continueLoop → bad (.ofKind .continueOutsideLoop))
include uncaught noBreak noContinue

theorem meets_scriptResult {c : Completion} (hc : Signaling inner c) :
    Meets A I Execution.Handed bad (scriptResult c) := by
  obtain ⟨value, signal⟩ := c
  cases signal with
  | none => exact meets_pure (Or.inl rfl)
  | returned vs => exact meets_pure (Or.inr ⟨vs, rfl⟩)
  | thrown v p => exact meets_raise (uncaught v p hc)
  | breakLoop => exact meets_raise (noBreak hc)
  | continueLoop => exact meets_raise (noContinue hc)

theorem meets_runScript {config : Config} {script : Block} {scope : ScopeId}
    (refused : ∀ max, bad (.ofKind (.recursionLimit max)))
    (enter : ∀ s, I s → (∀ max ∈ config.maxCallDepth, s.callDepth < max) →
      J { s with callDepth := s.callDepth + 1 })
    (leave : ∀ t, J t → I { t with callDepth := t.callDepth - 1 })
    (hscript : Meets A J (Signaling inner) bad (runBlock script scope .function)) :
    Meets A I Execution.Handed bad (runScript config script scope) := by
  refine meets_entered (meets_bind hscript fun c hc => ?_) refused enter leave
  exact meets_scriptResult uncaught noBreak noContinue hc

end Scripts

/-! ## Functions of the host -/

section Host
variable {bad : Raise → Prop}

theorem meets_runPending {bad : ε → Prop}
    (drained : Meets A I (fun _ => True) bad (drain : Exec ε Nat)) :
    Meets A I (fun _ => True) bad (runPending : Exec ε Nat) := by
  intro s hs
  unfold runPending
  split
  · exact ⟨hs, trivial⟩
  · exact drained s hs

theorem meets_schedule {bad : ε → Prop} (hI : Steady I) {f : State → Scheduler}
    (step : ∀ s : State, s.scheduler.Step (f s)) :
    Meets A I (fun _ => True) bad
      (modify fun s => { s with scheduler := f s } : Exec ε Unit) :=
  meets_modify (fun s hs => hI.schedule s (f s) (step s) hs) trivial

/-- A program of the host calls what it comes to, and it fails as it says or as that does. -/
theorem meets_runHost {program : HostProgram}
    (raises : ∀ r own, program.ComesTo (.raise r own) → bad r)
    (calls : ∀ f args next, program.ComesTo (.call f args next) →
      Meets A I (fun _ => True) bad (call f args)) :
    Meets A I (fun _ => True) bad (runHost program) := by
  induction program with
  | yield v => exact meets_pure trivial
  | raise r own => exact meets_raise (raises r own (.here _))
  | panic message => exact meets_panic
  | call f args next ih =>
      refine meets_bind (calls f args next (.here _)) fun v _ => ih v (fun r own h => ?_) ?_
      · exact raises r own (.next v h)
      · exact fun g vs rest h => calls g vs rest (.next v h)

section Programs
variable {config : Config} {f : FunctionRef} {args : List Value}
variable (plain : ∀ k, ErrorKind.IsPlain k → bad (.ofKind k))
variable (programs : ∀ h ∈ f.hostFunction? config,
  Meets A I (fun _ => True) bad (runHost (h.run args)))
variable (drained : Meets A I (fun _ => True) bad (drain : Exec Raise Nat))
include plain programs drained

theorem meets_callBuiltin (hI : Steady I) {b : Builtin} (same : f = .builtin b) :
    Meets A I (fun _ => True) bad (callBuiltin b args) := by
  subst same
  cases b with
  | depth => exact meets_read fun _ _ => trivial
  | live => exact meets_read fun _ _ => trivial
  | runPending => exact meets_bind (meets_runPending drained) fun _ _ => meets_pure trivial
  | cancelled => exact meets_read fun _ _ => trivial
  | cancel =>
      refine meets_bind (M := fun _ => True) (meets_read fun _ _ => trivial) fun t? _ => ?_
      split
      · exact meets_bind (meets_schedule hI fun _ => .cancel _) fun _ _ => meets_pure trivial
      · exact meets_pure trivial
  | cancelAll =>
      exact meets_bind (meets_schedule hI fun _ => .cancelAll) fun _ _ => meets_pure trivial
  | status => exact meets_read fun _ _ => trivial
  | raiseCancelled => exact meets_raise (plain _ trivial)
  | throwAt | panic | invoke => exact programs _ rfl

/-- A call of a function of the host. -/
theorem meets_callHost (hI : Steady I) (host : ∀ id name, f ≠ .closure id name) :
    Meets A I (fun _ => True) bad (callBody config f args) := by
  cases f with
  | host id name => exact programs _ rfl
  | recorder =>
      refine meets_bind (M := fun _ => True) ?_ fun _ _ => meets_pure trivial
      exact meets_modify (fun s hs => hI.record s _ hs) trivial
  | builtin b => exact meets_callBuiltin plain programs drained hI rfl
  | closure id name => exact absurd rfl (host id name)

/-- A call of a function literal is a call of what was captured, if there is such a thing. -/
theorem meets_callBody (hI : Steady I) {C : Closure → Prop}
    (known : ∀ s, I s → ∀ c ∈ s.closures, C c)
    (closures : ∀ c, C c → Meets A I (fun _ => True) bad (callClosure config c args)) :
    Meets A I (fun _ => True) bad (callBody config f args) := by
  cases f with
  | host | recorder | builtin => exact meets_callHost plain programs drained hI (by simp)
  | closure id name =>
      refine meets_bind (M := fun c? => ∀ c ∈ c?, C c) (meets_read fun s hs c hc => ?_)
        fun c? hc? => ?_
      · exact known s hs c (Array.mem_of_getElem? hc)
      · split
        · next c => exact closures c (hc? c rfl)
        · exact meets_raise (plain _ trivial)

end Programs

end Host

/-! ## Tasks -/

section Tasks
variable {bad : ε → Prop}

theorem meets_settleTask (hI : Steady I) (t : TaskId) (o : Outcome Raise Value) :
    Meets A I (fun _ => True) bad (settleTask t o : Exec ε Unit) := by
  have reported : ∀ r, Meets A I (fun _ => True) bad (report t r : Exec ε Unit) := by
    refine fun r => meets_modify (fun s hs => ?_) trivial
    split
    · exact hI.tell s _ hs
    · exact hs
  have finished : ∀ status, Meets A I (fun _ => True) bad (finishTask t status : Exec ε Unit) :=
    fun status => meets_schedule hI fun _ => .finish t status
  cases o with
  | ok v => exact finished _
  | raised r =>
      unfold settleTask
      dsimp only
      split
      · exact meets_bind (reported r) fun _ _ => finished _
      · exact finished _
  | panicked m => exact meets_bind (reported _) fun _ _ => finished _

/-- What holds while a task runs may say which one it is. -/
theorem meets_runJob (hI : Steady I) {job : Job} {B : Raise → Prop}
    (work : Meets A J (fun _ => True) B (doWork job.work))
    (enter : ∀ s, I s → J { s with running := some job.task })
    (leave : ∀ s t, I s → J t → I { t with running := s.running }) :
    Meets A I (fun _ => True) bad (runJob job : Exec ε Unit) := by
  -- the task is entered and left around its work, whatever comes of it
  have task : Meets A I (fun _ => True) B (asTask job.task (doWork job.work)) :=
    meets_between (f := fun s => { s with running := some job.task })
      (g := fun s t => { t with running := s.running }) work enter leave
  refine meets_bind (M := fun _ => True)
    (meets_modifyGet fun s hs => ⟨hI.schedule s _ (.start job.task) hs, trivial⟩)
    fun started _ => ?_
  have left : Meets A I (fun _ => True) bad
      (modify fun s => { s with scheduler := s.scheduler.leave job.task } : Exec ε Unit) :=
    meets_schedule hI fun _ => .leave job.task
  dsimp only
  split
  · refine meets_bind (meets_settle task) fun o _ => ?_
    exact meets_bind (meets_settleTask hI job.task o) fun _ _ => left
  · exact left

/-- Draining goes from job to job. -/
theorem ensures_drainBody (hI : Steady I) {ran : Nat} {s : State} (hs : I s)
    (jobs : ∀ job, Meets A I (fun _ => True) (fun _ => True) (runJob job : Exec Empty Unit))
    (drained : A.Grants I (.drain (ran + 1)) fun _ => True) :
    Resumption.Ensures A.requires A.promises (drainBody ran s) fun _ t => I t := by
  unfold drainBody
  split
  · exact hs
  · next job scheduler taken =>
    rw [Resumption.ensures_bind]
    refine (jobs job _ (hI.schedule s scheduler (.take taken) hs)).mono fun o t ht => ?_
    exact ⟨(drained t ht.1).1, fun n u hu => ((drained t ht.1).2 n u hu).1⟩

theorem meets_waitFor {what : Awaited}
    (awaited : Meets A I (fun _ => True) bad (await what : Exec ε Unit)) :
    Meets A I (fun _ => True) bad (waitFor what : Exec ε Unit) := by
  refine meets_bind (M := fun _ => True) (meets_read fun _ _ => trivial) fun b _ => ?_
  split
  · exact awaited
  · exact meets_pure trivial

end Tasks

/-! ## Commands of the host -/

section Commands
variable {bad : ε → Prop}
variable (awaited : ∀ what, Meets A I (fun _ => True) bad (await what : Exec ε Unit))
variable (drained : Meets A I (fun _ => True) bad (drain : Exec ε Nat))
include awaited drained

omit awaited drained in
theorem meets_onHeld {t : TaskId} {reply : Exec ε TaskReply}
    (h : Meets A I (fun _ => True) bad reply) : Meets A I (fun _ => True) bad (onHeld t reply) := by
  refine meets_bind (M := fun _ => True) (meets_read fun _ _ => trivial) fun b _ => ?_
  split
  · exact h
  · exact meets_pure trivial

theorem meets_runCommand (hI : Steady I) (c : TaskCommand) :
    Meets A I (fun _ => True) bad (runCommand c : Exec ε TaskReply) := by
  have look : ∀ f : State → TaskReply, Meets A I (fun _ => True) bad (read f : Exec ε TaskReply) :=
    fun f => meets_read fun _ _ => trivial
  have change : ∀ f : State → TaskReply × State, (∀ s, I s → I (f s).2) →
      Meets A I (fun _ => True) bad (modifyGet f : Exec ε TaskReply) :=
    fun f h => meets_modifyGet fun s hs => ⟨h s hs, trivial⟩
  cases c with
  | spawn name body args position =>
      unfold runCommand
      refine change _ fun s hs => ?_
      exact hI.hold (s.spawn _ _) _ (hI.schedule s _ (.spawn _ _ s.worker) hs)
  | runPending => exact meets_bind (meets_runPending drained) fun _ _ => meets_pure trivial
  | joinAll =>
      refine meets_bind (M := fun _ => True) ?_ fun _ _ => meets_pure trivial
      refine meets_bind (meets_runPending drained) fun _ _ => ?_
      exact meets_waitFor (awaited _)
  | cancelAll =>
      exact meets_bind (meets_schedule hI fun _ => .cancelAll) fun _ _ => meets_pure trivial
  | live | tasks | requested | depth | failures | strategy | describeScheduler | describeSink =>
      exact look _
  | handle t => exact look _
  | status t => exact meets_onHeld (look _)
  | cancel t =>
      exact meets_onHeld (meets_bind (meets_schedule hI fun _ => .cancel t) fun _ _ => look _)
  | cancelQuietly t =>
      exact meets_onHeld
        (meets_bind (meets_schedule hI fun _ => .cancel t) fun _ _ => meets_pure trivial)
  | join t => exact meets_onHeld (meets_bind (meets_waitFor (awaited _)) fun _ _ => look _)
  | joinTimeout t => exact meets_onHeld (meets_bind (meets_waitFor (awaited _)) fun _ _ => look _)
  | describeTask t => exact meets_onHeld (look _)
  | hold =>
      unfold runCommand
      refine change _ fun s hs => ?_
      exact hI.hold s _ hs
  | takeFailures =>
      unfold runCommand
      refine change _ fun s hs => ?_
      exact hI.tell s _ hs

end Commands

/-- The actions of a host function may end with any error and any throw. -/
theorem meets_perform (hI : Steady I) {name : String} {args : List Value}
    (awaited : ∀ what, Meets A I (fun _ => True) (fun _ => True) (await what : Exec Raise Unit))
    (drained : Meets A I (fun _ => True) (fun _ => True) (drain : Exec Raise Nat))
    (body : List TaskAction) :
    Meets A I (fun _ => True) (fun _ => True) (perform name args body) := by
  have noted : ∀ reply,
      Meets A I (fun _ => True) (fun _ => True) (note name reply : Exec Raise Unit) :=
    fun reply => meets_modify (fun s hs => hI.note s _ hs) trivial
  induction body with
  | nil => exact meets_pure trivial
  | cons action rest ih =>
      cases action with
      | command c =>
          refine meets_bind (meets_runCommand awaited drained hI c) fun reply _ => ?_
          exact meets_bind (noted reply) fun _ _ => ih
      | arguments => exact meets_bind (noted _) fun _ _ => ih
      | finish v => exact meets_pure trivial
      | throw v p => exact meets_raise trivial
      | fail k => exact meets_raise trivial
      | panic payload => exact meets_panic

end Exec

end StatementEngine
