import StatementEngine.Proofs.Contract.Keeping
import StatementEngine.Proofs.Scope.Growth

/-!
# What a run leaves as it was

**The frame of a question** is what its answer cannot have changed (`State.KeptSince`): scopes keep
their parents and names, and are given new names only where the question declares them; the call
depth, the running task and the worker are the same after the answer as before.

Only two questions declare names, and only in the scope that they are asked for: a declaration
statement, and a block for the declarations that are directly in it (`Request.declares`). All other
bindings are made in scopes that are new.
-/

namespace StatementEngine

/-- The names that the statements directly in a block declare. -/
def declaredIn (body : Block) : List Name := body.flatMap (·.form.declared)

/-- The names that are declared by a question, and where. -/
def Request.declares : Request → ScopeId → Name → Prop
  | .execute stmt scope _, i, n => i = scope ∧ n ∈ stmt.form.declared
  | .block body scope _, i, n => i = scope ∧ n ∈ declaredIn body
  | _, _, _ => False

/-- Since the first state, scopes have only been given names that they may have, and the worker is
the same; the call depth and the running task are as given. -/
structure State.Kept (may : ScopeId → Name → Prop) (s : State) (depth : Nat) (task : Option TaskId)
    (t : State) : Prop where
  scopes : s.scopes.Grows may t.scopes
  callDepth : t.callDepth = depth
  running : t.running = task
  worker : t.worker = s.worker

/-- The first state has been kept up to the names that scopes may have been given. -/
def State.KeptSince (may : ScopeId → Name → Prop) (s t : State) : Prop :=
  s.Kept may s.callDepth s.running t

variable {may may' : ScopeId → Name → Prop} {s t u : State} {depth : Nat} {task : Option TaskId}

theorem State.KeptSince.refl (s : State) : s.KeptSince may s := ⟨.refl _, rfl, rfl, rfl⟩

theorem State.Kept.trans (h : s.Kept may depth task t) (h' : t.KeptSince may' u)
    (le : ∀ i, s.scopes.scope? i ≠ none → ∀ n, may' i n → may i n) : s.Kept may depth task u where
  scopes := h.scopes.trans h'.scopes le
  callDepth := h'.callDepth.trans h.callDepth
  running := h'.running.trans h.running
  worker := h'.worker.trans h.worker

theorem State.Kept.enter (h : s.Kept may depth task t) :
    s.Kept may (depth + 1) task { t with callDepth := t.callDepth + 1 } :=
  { h with callDepth := congrArg (· + 1) h.callDepth }

theorem State.Kept.leave (h : s.Kept may (depth + 1) task t) :
    s.Kept may depth task { t with callDepth := t.callDepth - 1 } :=
  { h with callDepth := congrArg (· - 1) h.callDepth }

/-- The steps of the engine keep the frame. Fresh are the scopes that were not there at first. -/
theorem stable_kept (s : State) :
    Stable (s.Kept may depth task) fun i => s.scopes.scope? i = none where
  newChild _ _ h := ⟨{ h with scopes := h.scopes.add _ }, h.scopes.scope?_next⟩
  defineFresh _ _ _ _ fresh h := { h with scopes := h.scopes.defineNew fresh }
  overwrite _ _ _ _ _ found h := { h with scopes := h.scopes.overwrite found }
  register _ _ h := { h with }
  schedule _ _ _ h := { h with }
  tell _ _ h := { h with }
  record _ _ h := { h with }
  hold _ _ h := { h with }
  note _ _ h := { h with }

/-- Every answer keeps the frame of its question. -/
def frame : Contract where
  requires _ _ := True
  promises q s _ t := s.KeptSince q.declares t

/-- A question may be asked in between if it only declares what may be declared. -/
theorem frame_lets {q : Request}
    (le : ∀ i, s.scopes.scope? i ≠ none → ∀ n, q.declares i n → may i n) :
    frame.Lets (s.Kept may depth task) q :=
  fun _ ht => ⟨trivial, fun _ _ hu => ⟨ht.trans hu le, trivial⟩⟩

/-- Most questions declare nothing. -/
theorem frame_lets_silent {q : Request} (silent : ∀ i n, ¬ q.declares i n) :
    frame.Lets (s.Kept may depth task) q :=
  frame_lets fun i _ n h => absurd h (silent i n)

/-- What is declared in a new scope is nobody else's business. -/
theorem frame_lets_fresh {q : Request} {child : ScopeId} (fresh : s.scopes.scope? child = none)
    (there : ∀ i n, q.declares i n → i = child) : frame.Lets (s.Kept may depth task) q := by
  refine frame_lets fun i hi n h => ?_
  -- a scope that declares was there at first, and the child was not
  obtain rfl := there i n h
  exact absurd fresh hi

namespace Exec

theorem kept_block (body : Block) (cx : Context) (child : ScopeId)
    (fresh : s.scopes.scope? child = none) :
    frame.Lets (s.Kept may depth task) (.block body child cx) :=
  frame_lets_fresh fresh fun _ _ h => h.1

/-- The names that a statement declares are bound where it stands, and whatever its blocks declare
is bound elsewhere. -/
theorem kept_executeBody {stmt : Stmt} {scope : ScopeId} (cx : Context)
    (le : ∀ n ∈ stmt.form.declared, may scope n) :
    Keeps frame (s.Kept may depth task) (executeBody stmt scope cx) :=
  keeps_executeBody (stable_kept s) (fun _ _ => frame_lets_silent fun _ _ h => h)
    (fun b _ => kept_block b.2 b.1)
    (fun _ _ _ fresh => frame_lets_fresh fresh fun _ _ h => h.1)
    (fun _ _ _ _ _ => frame_lets_silent fun _ _ h => h)
    fun n hn _ _ ht => { ht with scopes := ht.scopes.define fun _ _ _ => Or.inr (le n hn) }

theorem kept_blockBody {body : Block} {scope : ScopeId} (cx : Context)
    (le : ∀ n ∈ declaredIn body, may scope n) :
    Keeps frame (s.Kept may depth task) (blockBody body scope cx) := by
  refine keeps_blockBody fun stmt hstmt => frame_lets fun i _ n h => ?_
  obtain ⟨rfl, hn⟩ := h
  exact le n (List.mem_flatMap.mpr ⟨stmt, hstmt, hn⟩)

theorem kept_callBody (config : Config) (f : FunctionRef) (args : List Value) :
    Keeps frame (s.Kept may depth task) (callBody config f args) := by
  refine keeps_callBody (fun _ h _ => h.enter) (fun _ h => h.leave) (stable_kept s)
    (C := fun _ => True) (fun _ _ _ _ => trivial) (fun _ _ _ => ?_) ?_ fun c _ => ?_
  · exact frame_lets_silent fun _ _ h => h
  · exact frame_lets_silent fun _ _ h => h
  · exact kept_block c.literal.body .function

/-- Whoever runs a job goes back to the task from before, however the work ends. -/
theorem kept_runJob (job : Job) : Keeps frame (s.Kept may depth task) (runJob job : Exec ε Unit) :=
  meets_runJob (stable_kept s).toSteady
    (keeps_doWork (frame_lets_silent fun _ _ h => h))
    (fun _ ht => { ht with running := rfl }) fun _ _ ht hu => { hu with running := ht.running }

end Exec

/-- The frame is relative to the state in which the question is asked. -/
theorem ensures_of_keeps (q : Request) {x : Exec ε α}
    (h : Exec.Keeps frame (s.Kept q.declares s.callDepth s.running) x) :
    Resumption.Ensures frame.requires frame.promises (x s) fun _ t => s.KeptSince q.declares t :=
  (h s (State.KeptSince.refl s)).mono fun _ _ h => h.1

/-- Every run keeps the frame. -/
theorem frame_honored (config : Config) : frame.Honored config := by
  intro q s _
  cases q with
  | evaluate e scope =>
      refine ensures_of_keeps (.evaluate e scope)
        (Exec.keeps_evaluateBody ((stable_kept s).at scope) ?_ ?_ ?_)
      · exact fun _ _ => frame_lets_silent fun _ _ h => h
      · exact fun _ _ => frame_lets_silent fun _ _ h => h
      · exact fun _ _ _ ht => { ht with }
  | call f args => exact ensures_of_keeps (.call f args) (Exec.kept_callBody config f args)
  | execute stmt scope cx =>
      exact ensures_of_keeps (.execute stmt scope cx)
        (Exec.kept_executeBody cx fun _ hn => ⟨rfl, hn⟩)
  | block body scope cx =>
      exact ensures_of_keeps (.block body scope cx) (Exec.kept_blockBody cx fun _ hn => ⟨rfl, hn⟩)
  | iterate loop =>
      refine ensures_of_keeps (.iterate loop) (Exec.keeps_iterateBody (stable_kept s) ?_ ?_ ?_ ?_)
      · exact fun _ _ => frame_lets_silent fun _ _ h => h
      · exact fun _ _ => frame_lets_silent fun _ _ h => h
      · exact Exec.kept_block loop.body loop.context
      · exact frame_lets_silent fun _ _ h => h
  | work w =>
      refine ensures_of_keeps (.work w) (Exec.keeps_workBody (stable_kept s).toSteady ?_ ?_ ?_)
      · exact fun _ _ => frame_lets_silent fun _ _ h => h
      · exact fun _ => frame_lets_silent fun _ _ h => h
      · exact frame_lets_silent fun _ _ h => h
  | drain ran =>
      exact Exec.ensures_drainBody (stable_kept s).toSteady (State.KeptSince.refl s)
        Exec.kept_runJob (frame_lets_silent fun _ _ h => h)
  | await what => exact State.KeptSince.refl s

/-- An answer keeps the frame of its question. -/
theorem kept_of_answer {config : Config} {q : Request} {a : Answer q}
    (h : Resumption.Evaluates (Interpreter.bodies config) (.ask q s .done) a t) :
    s.KeptSince q.declares t :=
  (frame_honored config).answer trivial (Resumption.evaluates_ask_done_iff.mp h)

/-- A script keeps the frame of its statements. -/
theorem kept_of_runs_script {config : Config} {script : Block} {scope : ScopeId}
    {o : Outcome EngineError Execution}
    (h : Runs config (Exec.runScript config script scope) s o t) :
    s.KeptSince (Request.block script scope .function).declares t := by
  have run : Exec.Keeps frame
      (s.Kept (Request.block script scope .function).declares s.callDepth s.running)
      (Exec.runScript config script scope) :=
    Exec.keeps_runScript (fun _ h _ => h.enter) (fun _ h => h.leave) (frame_lets fun _ _ _ h => h)
  exact (run.runs (frame_honored config) (State.KeptSince.refl s) h).1

/-- Whatever a host has run, it leaves the calls that it enters and the tasks that it takes up. -/
theorem kept_everywhere (config : Config) (s : State) :
    Exec.Everywhere config fun x _ =>
      ∀ o t, Runs config x s o t → t.callDepth = s.callDepth ∧ t.running = s.running := by
  have keeps : Exec.Everywhere config fun x _ =>
      Exec.Keeps frame (s.Kept (fun _ _ => True) s.callDepth s.running) x :=
    Exec.everywhere_keeps (fun _ h => h.enter) (fun _ h => h.leave)
      (fun _ _ _ => frame_lets fun _ _ _ _ => trivial)
      (fun _ _ _ => frame_lets fun _ _ _ _ => trivial)
      (fun _ _ => frame_lets fun _ _ _ _ => trivial)
      (fun _ _ => frame_lets fun _ _ _ _ => trivial)
      fun _ _ => frame_lets fun _ _ _ _ => trivial
  refine keeps.imp fun x _ hx o t run => ?_
  have kept := (hx.runs (frame_honored config) (State.KeptSince.refl s) run).1
  exact ⟨kept.callDepth, kept.running⟩

end StatementEngine
