import StatementEngine.Proofs.Pairing.Basic

/-!
# Pairs of tasks

**The queue is the same in both runs**, and so is everything else that the host keeps outside of the
heaps: the same jobs are taken in the same order, they end alike, and the same is told of them. Only
what a task does may lead to the heaps, and that is a question again.

A queued task may hold any function, so these rules are for pairings that allow all functions.
-/

namespace StatementEngine

namespace Exec

variable {P : Pairing} {n : Nat} {α β ε δ : Type} {bad : ε → Prop}

/-! ## The rest of the state -/

/-- What is read of the rest of the state is the same in both. -/
theorem pairs_readRest {M : α → Prop} {f : State → α} (blind : ∀ s h, f (s.withHeap h) = f s)
    (hf : ∀ s, M (f s)) : Pairs P n (Same M) bad (read f) (read f) := by
  refine pairs_read fun s s' twin => ?_
  cases twin with
  | intro h' twin room => exact ⟨blind s h', hf s⟩

/-- What changes the rest of the state changes it in both. -/
theorem pairs_modifyRest {f : State → State}
    (blind : ∀ s h, f (s.withHeap h) = (f s).withHeap h) (same : ∀ s, (f s).heap = s.heap) :
    Pairs P n (Same fun _ => True) bad (modify f) (modify f) := by
  refine pairs_modify fun s s' twin => ?_
  cases twin with
  | intro h' twin room =>
      rw [blind]
      rw [← same] at twin room
      exact .intro h' twin room

theorem pairs_modifyGetRest {f : State → α × State}
    (blind : ∀ s h, f (s.withHeap h) = ((f s).1, (f s).2.withHeap h))
    (same : ∀ s, (f s).2.heap = s.heap) :
    Pairs P n (Same fun _ => True) bad (modifyGet f) (modifyGet f) := by
  refine pairs_modifyGet fun s s' twin => ?_
  cases twin with
  | intro h' twin room =>
      rw [blind]
      rw [← same] at twin room
      exact ⟨.intro h' twin room, rfl, trivial⟩

/-! ## Jobs -/

/-- Both computations are run as the task. -/
theorem pairs_asTask {ok : α → β → Prop} {t : TaskId} {x : Exec ε α} {x' : Exec ε β}
    (hx : Pairs P n ok bad x x') : Pairs P n ok bad (asTask t x) (asTask t x') := by
  intro s s' twin
  cases twin with
  | intro h' twin room =>
      have inside : P.Twin n { s with running := some t }
        { s.withHeap h' with running := some t } := .intro h' twin room
      refine Resumption.Lockstep.bind ((hx _ _ inside).mono fun o t o' t' ended => ?_)
      refine ⟨?_, ended.2⟩
      cases ended.1 with
      | intro h' twin room => exact .intro h' twin room

/-- However the computations end, they go on with outcomes of the same kind. -/
theorem pairs_settle {ok : α → β → Prop} {bad' : δ → Prop} {x : Exec ε α} {x' : Exec ε β}
    (hx : Pairs P n ok bad x x') : Pairs P n (Outcome.Pairs ok bad) bad' x.settle x'.settle := by
  intro s s' twin
  refine Resumption.Lockstep.bind ((hx s s' twin).mono fun o t o' t' ended => ?_)
  exact ⟨ended.1, .ok ended.2⟩

theorem pairs_settleTask (t : TaskId) (o : Outcome Raise Value) :
    Pairs P n (Same fun _ => True) bad (settleTask t o) (settleTask t o) := by
  have reported : ∀ r, Pairs P n (Same fun _ => True) bad (report t r) (report t r) := by
    intro r
    refine pairs_modifyRest (fun s h => ?_) fun s => ?_
    · rw [show (s.withHeap h).scheduler = s.scheduler from rfl]
      split
      · rfl
      · rfl
    · split
      · rfl
      · rfl
  have finished : ∀ status,
      Pairs P n (Same fun _ => True) bad (finishTask t status) (finishTask t status) :=
    fun status => pairs_modifyRest (fun _ _ => rfl) fun _ => rfl
  cases o with
  | ok v => exact finished _
  | raised r =>
      unfold settleTask
      dsimp only
      split
      · exact pairs_then (reported r) fun _ _ => finished _
      · exact finished _
  | panicked m => exact pairs_then (reported _) fun _ _ => finished _

theorem pairs_runJob (all : ∀ f, P.fn f) (job : Job) :
    Pairs P n (Same fun _ => True) bad (runJob job) (runJob job) := by
  have left : Pairs P n (Same fun _ => True) bad
      (modify fun s => { s with scheduler := s.scheduler.leave job.task })
      (modify fun s => { s with scheduler := s.scheduler.leave job.task }) :=
    pairs_modifyRest (fun _ _ => rfl) fun _ => rfl
  refine pairs_then (pairs_modifyGetRest (fun _ _ => rfl) fun _ => rfl) fun started _ => ?_
  dsimp only
  split
  · refine pairs_bind (pairs_settle (pairs_asTask (pairs_doWork all))) fun o o' same => ?_
    rw [same.eq]
    exact pairs_then (pairs_settleTask job.task o) fun _ _ => left
  · exact left

/-! ## The queue -/

theorem pairs_runPending (all : ∀ f, P.fn f) :
    Pairs P n (Same fun _ => True) bad runPending runPending := by
  intro s s' twin
  have drained : Pairs P n (Same fun _ => True) bad drain drain := pairs_drain all
  cases twin with
  | intro h' twin room =>
      unfold runPending
      rw [show (s.withHeap h').scheduler = s.scheduler from rfl]
      split
      · exact ⟨.intro h' twin room, .ok ⟨rfl, trivial⟩⟩
      · exact drained _ _ (.intro h' twin room)

/-- Both queues are drained of the same jobs. -/
theorem lockstep_drainBody (all : ∀ f, P.fn f) (ran : Nat) {s s' : State} (twin : P.Twin n s s') :
    Resumption.Lockstep P.Asks P.Answers (drainBody ran s) (drainBody ran s')
      fun ran t ran' t' => P.Twin n t t' ∧ ran' = ran := by
  cases twin with
  | intro h' twin room =>
      unfold drainBody
      rw [show (s.withHeap h').scheduler = s.scheduler from rfl]
      split
      · exact ⟨.intro h' twin room, rfl⟩
      · next job scheduler _ =>
        have taken : P.Twin n { s with scheduler } { s.withHeap h' with scheduler } :=
          .intro h' twin room
        have run : Pairs P n (Same fun _ => True) (fun _ : Empty => True) (runJob job)
            (runJob job) := pairs_runJob all job
        refine Resumption.Lockstep.bind ((run _ _ taken).mono fun _ t _ t' ended => ?_)
        exact Pairing.Question.lockstep (.drain all) ended.1 fun _ _ _ _ twin reply => ⟨twin, reply⟩

theorem pairs_waitFor (what : Awaited) :
    Pairs P n (Same fun _ => True) bad (waitFor what) (waitFor what) := by
  refine pairs_then (M := fun _ => True) (pairs_readRest (fun _ _ => rfl) fun _ => trivial)
    fun b _ => ?_
  split
  · exact pairs_await
  · exact pairs_value trivial

/-! ## Commands of the host -/

theorem pairs_onHeld {t : TaskId} {reply : Exec ε TaskReply}
    (h : Pairs P n (Same fun _ => True) bad reply reply) :
    Pairs P n (Same fun _ => True) bad (onHeld t reply) (onHeld t reply) := by
  refine pairs_then (M := fun _ => True) (pairs_readRest (fun _ _ => rfl) fun _ => trivial)
    fun b _ => ?_
  split
  · exact h
  · exact pairs_value trivial

theorem pairs_runCommand (all : ∀ f, P.fn f) (c : TaskCommand) :
    Pairs P n (Same fun _ => True) bad (runCommand c) (runCommand c) := by
  have look : ∀ f : State → TaskReply, (∀ s h, f (s.withHeap h) = f s) →
      Pairs P n (Same fun _ => True) bad (read f) (read f) :=
    fun f blind => pairs_readRest blind fun _ => trivial
  have schedule : ∀ f : Scheduler → Scheduler, Pairs P n (Same fun _ => True) bad
      (modify fun s => { s with scheduler := f s.scheduler })
      (modify fun s => { s with scheduler := f s.scheduler }) :=
    fun f => pairs_modifyRest (fun _ _ => rfl) fun _ => rfl
  cases c with
  | spawn name body args position =>
      unfold runCommand
      exact pairs_modifyGetRest (fun _ _ => rfl) fun _ => rfl
  | runPending => exact pairs_then (pairs_runPending all) fun _ _ => pairs_value trivial
  | joinAll =>
      refine pairs_then (M := fun _ => True) ?_ fun _ _ => pairs_value trivial
      exact pairs_then (pairs_runPending all) fun _ _ => pairs_waitFor _
  | cancelAll => exact pairs_then (schedule (·.cancelAll)) fun _ _ => pairs_value trivial
  | live | tasks | handle | requested | depth | failures | strategy | describeScheduler
  | describeSink => exact look _ fun _ _ => rfl
  | status t => exact pairs_onHeld (look _ fun _ _ => rfl)
  | cancel t =>
      exact pairs_onHeld (pairs_then (schedule (·.cancel t)) fun _ _ => look _ fun _ _ => rfl)
  | cancelQuietly t =>
      exact pairs_onHeld (pairs_then (schedule (·.cancel t)) fun _ _ => pairs_value trivial)
  | join t => exact pairs_onHeld (pairs_then (pairs_waitFor _) fun _ _ => look _ fun _ _ => rfl)
  | joinTimeout t =>
      exact pairs_onHeld (pairs_then (pairs_waitFor _) fun _ _ => look _ fun _ _ => rfl)
  | describeTask t => exact pairs_onHeld (look _ fun _ _ => rfl)
  | hold | takeFailures =>
      unfold runCommand
      exact pairs_modifyGetRest (fun _ _ => rfl) fun _ => rfl

theorem pairs_perform (all : ∀ f, P.fn f) (name : String) (args : List Value)
    (body : List TaskAction) :
    PairsRaise P n (Value.Only P.fn) (perform name args body) (perform name args body) := by
  have noted : ∀ reply, Pairs P n (Same fun _ => True) (Raise.Only P.fn) (note name reply)
      (note name reply) := fun reply => pairs_modifyRest (fun _ _ => rfl) fun _ => rfl
  induction body with
  | nil => exact pairs_value Value.only_nil
  | cons action rest ih =>
      cases action with
      | command c =>
          refine pairs_then (pairs_runCommand all c) fun reply _ => ?_
          exact pairs_then (noted reply) fun _ _ => ih
      | arguments => exact pairs_then (noted _) fun _ _ => ih
      | finish v => exact pairs_value fun f _ => all f
      | throw v p => exact pairs_raise fun f _ => all f
      | fail k => exact pairs_raise trivial
      | panic payload => exact pairs_panic _

theorem pairs_workBody (all : ∀ f, P.fn f) (w : Work) :
    PairsRaise P n (Value.Only P.fn) (workBody w) (workBody w) := by
  cases w with
  | call f args => exact pairs_call (all f) fun _ _ g _ => all g
  | perform name body args => exact pairs_perform all name args body

end Exec

end StatementEngine
