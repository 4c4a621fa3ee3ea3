import StatementEngine.Proofs.EmptyScopes
import StatementEngine.Proofs.Run.Abort
import StatementEngine.Proofs.Run.Alike
import StatementEngine.Proofs.Run.Asked

/-!
# A chain of branches is a nest of conditionals

**The branches after the first one may as well stand in the block at the end.** A chain evaluates
all its conditions in the surrounding scope. In a nest, the conditional with the next branch is a
statement of a block of its own (`elseBlock`), so its condition is evaluated in the scope of that
block, one deeper for each branch. All these scopes are empty, so the runs are paired again and
again, each time with one more scope in between (`padding`).

* The nested statements have positions, those of their branches, which nobody gets to see: whatever
  goes wrong in a branch has a position already (`Outcome.Settled`).
* Before the statement of a block the running task is asked whether it should stop, and a chain does
  not ask that between its conditions. So this is about chains that are not disturbed
  (`Undisturbed`); outside of tasks none is.

The main result is `else_if_as_nested`. It also says what a chain asks: its conditions one after the
other until one holds (`Passes`), and then what decides its outcome (`Decides`), which is one block
at most.
-/

namespace StatementEngine

/-- The block at the end that stands for more branches: each is a conditional of its own, in the
block at the end of the one before it. -/
def elseBlock (otherwise : Option Block) : List Branch → Option Block
  | [] => otherwise
  | b :: rest => some [⟨b.position, .ifChain [b] (elseBlock otherwise rest)⟩]

/-! ## What a chain asks -/

/-- The conditions of branches are evaluated one after the other, and none of them holds. -/
inductive Passes (config : Config) (scope : ScopeId) :
    List Branch → State → Questions → State → Prop
  | nil (s : State) : Passes config scope [] s [] s
  | cons {b : Branch} {rest : List Branch} {s u t : State} {v : Value} {first last : Questions}
      (asked : Asks config (Exec.evaluate b.condition scope) s first (.ok v) u)
      (falsy : v.isTruthy = false) (passes : Passes config scope rest u last t) :
      Passes config scope (b :: rest) s (first ++ last) t

/-- What ends a chain when no condition so far has held: a condition that holds and the block of its
branch, a condition that does not yield a value, or the block at the end. -/
inductive Decides (config : Config) (otherwise : Option Block) (scope : ScopeId) (cx : Context) :
    List Branch → State → Questions → Outcome Raise Completion → State → Prop
  | last {s t : State} {asked : Questions} {r : Outcome Raise Completion}
      (run : Asks config (Exec.failing (Exec.runOptional otherwise scope cx)) s asked r t) :
      Decides config otherwise scope cx [] s asked r t
  | holds {b : Branch} {rest : List Branch} {s u t : State} {v : Value} {first last : Questions}
      {r : Outcome Raise Completion}
      (asked : Asks config (Exec.evaluate b.condition scope) s first (.ok v) u)
      (truthy : v.isTruthy = true)
      (run : Asks config (Exec.failing (Exec.runChild b.body scope cx)) u last r t) :
      Decides config otherwise scope cx (b :: rest) s (first ++ last) r t
  | fails {b : Branch} {rest : List Branch} {s t : State} {asked : Questions} {e : Raise}
      (run : Asks config (Exec.evaluate b.condition scope) s asked (.raised e) t) :
      Decides config otherwise scope cx (b :: rest) s asked (.raised (e.fillPosition b.position)) t
  | panics {b : Branch} {rest : List Branch} {s t : State} {asked : Questions} {message : String}
      (run : Asks config (Exec.evaluate b.condition scope) s asked (.panicked message) t) :
      Decides config otherwise scope cx (b :: rest) s asked (.panicked message) t

variable {config : Config} {scope : ScopeId} {cx : Context} {otherwise : Option Block}
  {s s' t u : State} {b : Branch} {rest branches : List Branch} {asked : Questions}
  {r : Outcome Raise Completion}

/-- A chain evaluates its conditions until one holds, and is decided then. -/
theorem passes_of_asks
    (run : Asks config (Exec.runBranches otherwise scope cx branches) s asked r t) :
    ∃ passed left first u last, branches = passed ++ left ∧
      Passes config scope passed s first u ∧
      Decides config otherwise scope cx left u last r t ∧ asked = first ++ last := by
  induction branches generalizing s asked with
  | nil => exact ⟨[], [], [], s, asked, rfl, .nil s, .last run, rfl⟩
  | cons b rest ih =>
      rcases asks_bind_iff.mp run with ⟨v, u, first, next, tried, more, rfl⟩ | ⟨e, tried, rfl⟩ |
        ⟨message, tried, rfl⟩
      · obtain ⟨o, condition, same⟩ := asks_mapError_iff.mp tried
        obtain rfl := Outcome.ok_eq_mapError_iff.mp same
        by_cases truthy : v.isTruthy = true
        · rw [if_pos truthy] at more
          exact ⟨[], b :: rest, [], s, _, rfl, .nil s, .holds condition truthy more, rfl⟩
        · rw [if_neg truthy] at more
          obtain ⟨passed, left, between, w, last, rfl, passes, decided, rfl⟩ := ih more
          refine ⟨b :: passed, left, first ++ between, w, last, rfl, ?_, decided, by simp⟩
          exact .cons condition (Bool.eq_false_iff.mpr truthy) passes
      · obtain ⟨o, condition, same⟩ := asks_mapError_iff.mp tried
        obtain ⟨e', rfl, rfl⟩ := Outcome.raised_eq_mapError_iff.mp same
        exact ⟨[], b :: rest, [], s, asked, rfl, .nil s, .fails condition, rfl⟩
      · obtain ⟨o, condition, same⟩ := asks_mapError_iff.mp tried
        obtain rfl := Outcome.panicked_eq_mapError_iff.mp same
        exact ⟨[], b :: rest, [], s, asked, rfl, .nil s, .panics condition, rfl⟩

/-- Conditions are evaluated in the same task. -/
theorem Passes.running (passes : Passes config scope branches s asked u) :
    u.running = s.running := by
  induction passes with
  | nil s => rfl
  | cons condition _ _ ih =>
      exact ih.trans ((kept_everywhere config _).evaluate _ scope _ _ condition.runs).2

/-! ## Chains that are not disturbed -/

/-- However many conditions have been evaluated and have not held, the running task is not asked to
stop then. -/
def Undisturbed (config : Config) (scope : ScopeId) (branches : List Branch) (s : State) : Prop :=
  ∀ passed left asked u, branches = passed ++ left → Passes config scope passed s asked u →
    u.stopRequested = false

theorem Undisturbed.here (calm : Undisturbed config scope branches s) : s.stopRequested = false :=
  calm [] branches [] s rfl (.nil s)

theorem Undisturbed.next {v : Value} (calm : Undisturbed config scope (b :: rest) s)
    (run : Runs config (Exec.evaluate b.condition scope) s (.ok v) u)
    (falsy : v.isTruthy = false) : Undisturbed config scope rest u := by
  intro passed left asked w split passes
  obtain ⟨first, condition⟩ := run.asks
  exact calm (b :: passed) left _ w (by rw [split, List.cons_append])
    (.cons condition falsy passes)

/-- Outside of tasks nothing is asked to stop. -/
theorem undisturbed_of_not_running (idle : s.running = none) (branches : List Branch) :
    Undisturbed config scope branches s := by
  intro passed left asked u _ passes
  rw [State.stopRequested, passes.running, idle]
  rfl

/-! ## Outcomes that have their positions -/

/-- The outcome of a form is the same for a statement at any position. -/
def Outcome.Settled (r : Outcome Raise Completion) : Prop := ∀ p q, r.located p = r.located q

theorem settled_fillPosition (e : Raise) (p : Position) :
    (Outcome.raised (e.fillPosition p)).Settled := by
  intro q q'
  cases e with
  | thrown v at? => cases at? <;> rfl
  | failed e =>
      have located : (e.fillPosition p).position.isSome := by simp
      refine congrArg Outcome.raised ?_
      rw [EngineError.fillPosition_of_isSome located, EngineError.fillPosition_of_isSome located]

theorem settled_failing {o : Outcome EngineError Completion}
    (h : ∀ e, o = .raised e → e.position.isSome) : (o.mapError Raise.failed).Settled := by
  intro p q
  cases o with
  | raised e =>
      have located := h e rfl
      refine congrArg Outcome.raised ?_
      rw [EngineError.fillPosition_of_isSome located, EngineError.fillPosition_of_isSome located]
  | ok | panicked => rfl

theorem settled_runChild {body : Block}
    (run : Runs config (Exec.failing (Exec.runChild body scope cx)) s r t) : r.Settled := by
  obtain ⟨o, child, rfl⟩ := runs_failing_iff.mp run
  refine settled_failing fun e failed => ?_
  subst failed
  have block : Runs config (Exec.runBlock body (s.newChild scope).1 cx) (s.newChild scope).2
      (.raised e) t := child
  exact position_of_runs_runFrom (runs_block_iff.mp block)

theorem settled_runOptional
    (run : Runs config (Exec.failing (Exec.runOptional otherwise scope cx)) s r t) : r.Settled := by
  cases otherwise with
  | some body => exact settled_runChild run
  | none =>
      obtain ⟨o, nothing, rfl⟩ := runs_failing_iff.mp run
      obtain ⟨rfl, -⟩ := runs_pure_iff.mp nothing
      exact fun _ _ => rfl

/-- Once a statement has ended, its outcome does not depend on what it is a part of. -/
theorem located_failing_located (r : Outcome Raise Completion) (p q : Position) :
    ((r.located p).mapError Raise.failed).located q = r.located p := by
  match r with
  | .ok _ | .raised (.thrown ..) | .panicked _ => rfl
  | .raised (.failed e) =>
      refine congrArg Outcome.raised ?_
      exact EngineError.fillPosition_of_isSome (by simp) q

/-! ## A block with one statement -/

/-- A block with one statement ends as that statement does, in a new scope. -/
theorem runs_runChild_single_iff (calm : s.stopRequested = false) (stmt : Stmt) :
    Runs config (Exec.failing (Exec.runChild [stmt] scope cx)) s r t ↔
      ∃ q, Runs config (Exec.runForm stmt.position stmt.form s.scopes.next cx) (s.newChild scope).2
          q t ∧ r = (q.located stmt.position).mapError Raise.failed := by
  have block : ∀ o, Runs config (Exec.runChild [stmt] scope cx) s o t ↔
      Runs config (Exec.execute stmt s.scopes.next cx) (s.newChild scope).2 o t := by
    intro o
    exact runs_block_singleton_iff (s := (s.newChild scope).2) calm
  simp only [runs_failing_iff, block, runs_execute_iff, Exec.executeBody, runs_located_iff]
  constructor
  · intro run
    obtain ⟨_, ⟨q, run, rfl⟩, rfl⟩ := run
    exact ⟨q, run, rfl⟩
  · intro run
    obtain ⟨q, run, rfl⟩ := run
    exact ⟨_, ⟨q, run, rfl⟩, rfl⟩

/-! ## Branches and nested branches -/

/-- Statements that end with these outcomes end alike, in states that differ in empty scopes. -/
def EndsAlike (n : Nat) (r : Outcome Raise Completion) (t : State) (r' : Outcome Raise Completion)
    (t' : State) : Prop :=
  (∀ p q, r.located p = r'.located q) ∧ ∃ extra, t.PaddedSince n extra t'

section Nesting
variable {n : Nat} {m : Padding} {j : ScopeId}

/-- In a state with empty scopes in between, one more is made. -/
theorem twin_newChild (twin : (padding m).Twin n s s') (there : (m.behind j).index < s.heap.size) :
    ∃ m' : Padding, (padding m').Twin n s (s'.newChild j).2 ∧
      m'.behind s'.scopes.next = m.behind j ∧ ∀ i, i.index < n → m'.place i = m.place i := by
  cases twin with
  | intro h' padded room =>
      have size : h'.size = s.heap.size + m.extra := padded.scopes.size
      have below : j.index < s.heap.size + m.extra := size ▸ padded.behind_lt_iff.mp there
      refine ⟨m.interpose padded.scopes.grown j below,
        .intro (h'.newChild j) (padded.interpose below) room, ?_, fun i old => ?_⟩
      · have here : (s.withHeap h').scopes.next = ⟨s.heap.size + m.extra⟩ :=
          congrArg ScopeId.mk size
        rw [here]
        exact m.interpose_behind_new padded.scopes.grown below
      · exact m.interpose_place padded.scopes.grown below (Nat.lt_of_lt_of_le old room)

theorem sameEnds_of_pairs {M : Completion → Prop} {x x' : Exec Raise Completion}
    (keeps : ∀ i, i.index < n → m.place i = i) (twin : (padding m).Twin n s s')
    (paired : Exec.PairsRaise (padding m) s.heap.size M x x')
    (settled : ∀ r t, Runs config x s r t → r.Settled) :
    Exec.SameEnds config x s x' s' (EndsAlike n) := by
  refine (paired.sameEnds twin.here).mono fun r t r' t' run ended => ?_
  obtain ⟨rfl, twin⟩ := ended
  exact ⟨settled _ _ run, m.extra, paddedSince_of_twin keeps twin⟩

/-- One branch is tried alike, whatever comes after it, as long as that has the same ends. -/
theorem sameEnds_branch (keeps : ∀ i, i.index < n → m.place i = i)
    (twin : (padding m).Twin n s s') (there : (m.behind j).index < s.heap.size)
    (calm : Undisturbed config (m.behind j) (b :: rest) s)
    (after : ∀ u u', (padding m).Twin n u u' → (m.behind j).index < u.heap.size →
      Undisturbed config (m.behind j) rest u →
      Exec.SameEnds config (Exec.runBranches otherwise (m.behind j) cx rest) u
        (Exec.failing (Exec.runOptional (elseBlock otherwise rest) j cx)) u' (EndsAlike n)) :
    Exec.SameEnds config (Exec.runBranches otherwise (m.behind j) cx (b :: rest)) s
      (Exec.runBranches (elseBlock otherwise rest) j cx [b]) s' (EndsAlike n) := by
  have condition : Exec.PairsRaise (padding m) s.heap.size (Value.Only fun _ => True)
      ((Exec.evaluate b.condition (m.behind j)).mapError (·.fillPosition b.position))
      ((Exec.evaluate b.condition j).mapError (·.fillPosition b.position)) :=
    Exec.pairs_fillPosition (Exec.pairs_evaluate (P := padding m)
      (expr_obeys_literals (fun _ => trivial) b.condition) ⟨there, rfl⟩) b.position
  refine (condition.sameEnds twin.here).bind ?ok ?raised ?panicked
  case ok =>
    intro v u u' run twin'
    have grown : (m.behind j).index < u.heap.size := Nat.lt_of_lt_of_le there twin'.room
    by_cases truthy : v.isTruthy = true
    · rw [if_pos truthy, if_pos truthy]
      have body : Exec.PairsRaise (padding m) u.heap.size (Completion.Only fun _ => True)
          (Exec.failing (Exec.runChild b.body (m.behind j) cx))
          (Exec.failing (Exec.runChild b.body j cx)) :=
        Exec.pairs_failing (Exec.pairs_runChild (P := padding m) ⟨grown, rfl⟩
          (blockObeys_literals (fun _ => trivial) _ b.body))
      exact sameEnds_of_pairs keeps (twin'.mono twin.room) body fun _ _ => settled_runChild
    · rw [if_neg truthy, if_neg truthy]
      have falsy := Bool.eq_false_iff.mpr truthy
      exact after u u' (twin'.mono twin.room) grown
        (calm.next (runs_mapError_ok_iff.mp run) falsy)
  case raised =>
    intro e u u' run twin'
    obtain ⟨o, -, same⟩ := runs_mapError_iff.mp run
    obtain ⟨e', -, rfl⟩ := Outcome.raised_eq_mapError_iff.mp same
    exact ⟨settled_fillPosition e' b.position, m.extra, paddedSince_of_twin keeps twin'⟩
  case panicked =>
    intro message u u' _ twin'
    exact ⟨fun _ _ => rfl, m.extra, paddedSince_of_twin keeps twin'⟩

/-- More branches end as the block that stands for them. -/
theorem sameEnds_elseBlock (rest : List Branch) (keeps : ∀ i, i.index < n → m.place i = i)
    (twin : (padding m).Twin n s s') (there : (m.behind j).index < s.heap.size)
    (calm : Undisturbed config (m.behind j) rest s) :
    Exec.SameEnds config (Exec.runBranches otherwise (m.behind j) cx rest) s
      (Exec.failing (Exec.runOptional (elseBlock otherwise rest) j cx)) s' (EndsAlike n) := by
  induction rest generalizing m s s' j with
  | nil =>
      have last : Exec.PairsRaise (padding m) s.heap.size (Completion.Only fun _ => True)
          (Exec.failing (Exec.runOptional otherwise (m.behind j) cx))
          (Exec.failing (Exec.runOptional otherwise j cx)) :=
        Exec.pairs_failing (Exec.pairs_runOptional (P := padding m) ⟨there, rfl⟩
          fun body _ => blockObeys_literals (fun _ => trivial) _ body)
      exact sameEnds_of_pairs keeps twin last fun _ _ => settled_runOptional
  | cons b rest ih =>
      -- the block with the nested conditional gets a scope of its own, below the one so far
      obtain ⟨m', twin', behind, same⟩ := twin_newChild twin there
      rw [← behind] at there calm ⊢
      have keeps' : ∀ i, i.index < n → m'.place i = i :=
        fun i old => (same i old).trans (keeps i old)
      have inner : Exec.SameEnds config
          (Exec.runBranches otherwise (m'.behind s'.scopes.next) cx (b :: rest)) s
          (Exec.runBranches (elseBlock otherwise rest) s'.scopes.next cx [b]) (s'.newChild j).2
          (EndsAlike n) :=
        sameEnds_branch keeps' twin' there calm fun u u' twin there calm =>
          ih keeps' twin there calm
      have still : s'.stopRequested = false := by
        cases twin with
        | intro h' padded room => exact calm.here
      refine inner.map (f := id) (g := fun q => (q.located b.position).mapError Raise.failed)
        (fun r t => ?_) (fun r t => ?_) fun r t r' t' ended => ?_
      · exact ⟨fun run => ⟨r, run, rfl⟩, fun ⟨_, run, same⟩ => same ▸ run⟩
      · exact runs_runChild_single_iff still ⟨b.position, .ifChain [b] (elseBlock otherwise rest)⟩
      · refine ⟨fun p q => ?_, ended.2⟩
        exact (ended.1 p b.position).trans (located_failing_located r' b.position q).symm

end Nesting

/-- **A chain of branches is a nest of conditionals.** In a scope that is there, a chain that is not
disturbed comes to an end exactly if the conditional does that has its first branch and keeps the
others in the block at the end, one in the other. The outcome is the same then, the kind and the
position of an error included, at whatever positions the two stand, and so is all of the state but
for some empty scopes. The scopes that were there before are the same; those that have come since
are so up to their places, in functions and modules as well.

What a chain asks on its way is exactly this: conditions, in order, that do not hold, and then what
decides it, which runs one block at most. -/
theorem else_if_as_nested (config : Config) (p q : Position) (b : Branch) (rest : List Branch)
    (otherwise : Option Block) {scope : ScopeId} (cx : Context) {s : State} (sound : s.Sound)
    (there : scope.index < s.heap.size) (calm : Undisturbed config scope (b :: rest) s) :
    Exec.SameEnds config
      (Exec.execute ⟨p, .ifChain (b :: rest) otherwise⟩ scope cx) s
      (Exec.execute ⟨q, .ifChain [b] (elseBlock otherwise rest)⟩ scope cx) s
      (fun o t o' t' => o' = o ∧ ∃ extra, t.PaddedSince s.heap.size extra t') ∧
    ∀ asked o t,
      Asks config (Exec.execute ⟨p, .ifChain (b :: rest) otherwise⟩ scope cx) s asked o t →
      ∃ passed left first u last r, b :: rest = passed ++ left ∧
        Passes config scope passed s first u ∧
        Decides config otherwise scope cx left u last r t ∧
        asked = (.execute ⟨p, .ifChain (b :: rest) otherwise⟩ scope cx, s) :: (first ++ last) ∧
        o = r.located p := by
  have asIs : ∀ form position o t, Runs config (Exec.execute ⟨position, form⟩ scope cx) s o t ↔
      ∃ r, Runs config (Exec.runForm position form scope cx) s r t ∧ o = r.located position :=
    fun _ _ _ _ => runs_execute_iff.trans runs_located_iff
  refine ⟨?_, fun asked o t run => ?_⟩
  · have twin : (padding (.none s.heap.size)).Twin s.heap.size s s :=
      padding_twin_self sound (Nat.le_refl _)
    have branches : Exec.SameEnds config (Exec.runBranches otherwise scope cx (b :: rest)) s
        (Exec.runBranches (elseBlock otherwise rest) scope cx [b]) s (EndsAlike s.heap.size) :=
      sameEnds_branch (fun _ _ => rfl) twin there calm fun u u' twin there calm =>
        sameEnds_elseBlock rest (fun _ _ => rfl) twin there calm
    refine branches.map (asIs _ p) (asIs _ q) fun r t r' t' ended => ⟨?_, ended.2⟩
    exact (ended.1 p q).symm
  · obtain ⟨inner, body, rfl⟩ := asks_execute_iff.mp run
    obtain ⟨r, chain, rfl⟩ := asks_located_iff.mp body
    obtain ⟨passed, left, first, u, last, split, passes, decided, rfl⟩ := passes_of_asks chain
    exact ⟨passed, left, first, u, last, r, split, passes, decided, rfl, rfl⟩

/-! ## A chain whose second condition changes a variable -/

/-- A state with a variable that the conditions below are about. -/
def levelState : State :=
  { State.initial .deferred .log with
    scopes := (ScopeStore.empty.add none).define ⟨0⟩ "level" (.int 0) }

/-- Tells a value. -/
def tell (p : Position) (e : Expr) : Block :=
  [⟨p, .expr (.call (.literal (.function .recorder)) [e])⟩]

/-- Whether the level is negative. -/
def lowBranch : Branch :=
  ⟨⟨1, 1⟩, .binary .less (.variable "level") (.literal (.int 0)), tell ⟨2, 1⟩ (.literal (.str "low"))⟩

/-- Raises the level. The condition makes a function on the way, which captures the scope. -/
def raisingBranch : Branch :=
  ⟨⟨3, 1⟩,
    .index (.list [.set "level" (.binary .add (.variable "level") (.literal (.int 1))),
      .function ⟨"f", [], []⟩]) (.literal (.int 0)),
    tell ⟨4, 1⟩ (.variable "level")⟩

/-- The second of three branches is taken, in a chain and in a nest. -/
theorem else_if_as_nested_second : levelState.Sound ∧
    Undisturbed .standard ⟨0⟩ [lowBranch, raisingBranch, lowBranch] levelState ∧
    ∃ t t', Runs .standard
        (Exec.execute ⟨⟨1, 1⟩, .ifChain [lowBranch, raisingBranch, lowBranch] none⟩ ⟨0⟩ .function)
        levelState (.ok ⟨some .nil, .none⟩) t ∧
      Runs .standard
        (Exec.execute ⟨⟨1, 1⟩, .ifChain [lowBranch]
          (some [⟨⟨3, 1⟩, .ifChain [raisingBranch]
            (some [⟨⟨1, 1⟩, .ifChain [lowBranch] none⟩])⟩])⟩ ⟨0⟩ .function)
        levelState (.ok ⟨some .nil, .none⟩) t' ∧
      t'.recorded = #[.int 1] ∧ t'.scopes.local? ⟨0⟩ "level" = some (.int 1) ∧
      (t.closures[0]?).map (·.scope) = some ⟨0⟩ := by
  have sound : levelState.Sound := State.sound_of_empty rfl rfl
  have there : (⟨0⟩ : ScopeId).index < levelState.heap.size := by decide
  have calm : Undisturbed .standard ⟨0⟩ [lowBranch, raisingBranch, lowBranch] levelState :=
    undisturbed_of_not_running rfl _
  obtain ⟨t, run, told, raised, captured⟩ : ∃ t, Runs .standard
      (Exec.execute ⟨⟨1, 1⟩, .ifChain [lowBranch, raisingBranch, lowBranch] none⟩ ⟨0⟩ .function)
      levelState (.ok ⟨some .nil, .none⟩) t ∧ t.recorded = #[.int 1] ∧
      t.scopes.local? ⟨0⟩ "level" = some (.int 1) ∧
      (t.closures[0]?).map (·.scope) = some ⟨0⟩ :=
    ⟨_, runs_iff_run.mpr ⟨60, rfl⟩, rfl, rfl, rfl⟩
  obtain ⟨o', t', run', rfl, extra, padded⟩ := (else_if_as_nested .standard ⟨1, 1⟩ ⟨1, 1⟩ lowBranch
    [raisingBranch, lowBranch] none .function sound there calm).1.forth _ _ run
  have same : t'.scopes.scope? ⟨0⟩ = t.scopes.scope? ⟨0⟩ := padded.scope?_eq there
  refine ⟨sound, calm, t, t', run, run', ?_, ?_, captured⟩
  · rw [padded.rest]
    exact told
  · rw [ScopeStore.local?_eq, same, ← ScopeStore.local?_eq]
    exact raised

end StatementEngine
