import StatementEngine.Proofs.RangeLoop

/-!
# Loops that count

**A counting loop counts exactly.** The loop declares its counter in a scope of its own, in which its
condition and its update are evaluated; the body runs in a new scope below that one, so whatever it
declares is out of their sight. If each run of the body goes on with the loop and leaves the counter
as it was (`KeepsCount`), the body is entered once for each number from the first one up to the
bound, and the loop ends normally (`CountsUp`). The counter is below the bound whenever it is
increased, so the addition does not wrap.

The main result is `counting_loop_counts`.
-/

namespace StatementEngine

/-- One more than an integer that is below another one. -/
theorem toInt_add_one {n b : Int64} (below : n < b) : (n + 1).toInt = n.toInt + 1 := by
  have less := Int64.lt_iff_toInt_lt.mp below
  have least := n.le_toInt
  have most := b.toInt_lt
  rw [Int64.toInt_add, Int64.toInt_one]
  exact Int.bmod_eq_of_le (by omega) (by omega)

/-! ## The loop -/

/-- Whether a counter is below a bound. -/
def counterBelow (x : Name) (b : Int64) : Expr := .binary .less (.variable x) (.literal (.int b))

/-- Increases a counter. -/
def increase (x : Name) : Expr := .set x (.binary .add (.variable x) (.literal (.int 1)))

/-- The loop that counts from a number up to a bound. Its start is at a position of its own. -/
def countingLoop (p q : Position) (x : Name) (a b : Int64) (body : Block) : Stmt :=
  ⟨p, .forClauses (some ⟨q, .var [x] [.literal (.int a)]⟩) (some (counterBelow x b))
    (some (increase x)) body⟩

/-- The loop about to look at its counter. -/
def countingHead (x : Name) (b : Int64) (body : Block) (loop : ScopeId) (cx : Context) : LoopHead :=
  ⟨some (counterBelow x b), some (increase x), body, loop, cx⟩

/-- The state with a number in a counter. -/
def State.counted (s : State) (loop : ScopeId) (x : Name) (n : Int64) : State :=
  { s with scopes := s.scopes.define loop x (.int n) }

/-- What is asked to look at a counter. -/
def lookQuestions (x : Name) (b : Int64) (loop : ScopeId) (s : State) : Questions :=
  [(.evaluate (counterBelow x b) loop, s), (.evaluate (.variable x) loop, s),
    (.evaluate (.literal (.int b)) loop, s)]

/-- What is asked to increase a counter. -/
def increaseQuestions (x : Name) (loop : ScopeId) (s : State) : Questions :=
  [(.evaluate (increase x) loop, s),
    (.evaluate (.binary .add (.variable x) (.literal (.int 1))) loop, s),
    (.evaluate (.variable x) loop, s), (.evaluate (.literal (.int 1)) loop, s)]

variable {config : Config} {x : Name} {a b n : Int64} {body : Block} {loop scope : ScopeId}
  {cx : Context} {s t u w : State} {asked : Questions}

/-! ## Looking and increasing -/

theorem asks_counterBelow (here : s.scopes.local? loop x = some (.int n)) :
    Asks config (Exec.evaluate (counterBelow x b) loop) s (lookQuestions x b loop s)
      (.ok (.bool (decide (n < b)))) s :=
  asks_binary (asks_variable (ScopeStore.get?_of_local? here)) asks_literal rfl

theorem asks_increase (here : s.scopes.local? loop x = some (.int n)) :
    Asks config (Exec.evaluate (increase x) loop) s (increaseQuestions x loop s)
      (.ok (.int (n + 1))) (s.counted loop x (n + 1)) := by
  have sum : Asks config (Exec.evaluate (.binary .add (.variable x) (.literal (.int 1))) loop) s _
      (.ok (.int (n + 1))) s :=
    asks_binary (asks_variable (ScopeStore.get?_of_local? here)) asks_literal rfl
  have own : s.scopes.definer? loop x = some loop := ScopeStore.definer?_self (by rw [here]; rfl)
  have stored : Asks config ((Exec.setVariable loop x (.int (n + 1))).mapError Raise.ofKind) s []
      (.ok ()) (s.counted loop x (n + 1)) := by
    refine asks_mapError_iff.mpr ⟨.ok (), ?_, rfl⟩
    exact (asks_of_done (by rw [Exec.setVariable_apply, own]; rfl)).mpr ⟨rfl, rfl, rfl⟩
  refine asks_evaluate_iff.mpr ⟨_, (asks_bind_of_ok sum).mpr ⟨[], ?_, rfl⟩, rfl⟩
  exact (asks_bind_of_ok stored).mpr ⟨[], asks_pure_iff.mpr ⟨rfl, rfl, rfl⟩, rfl⟩

/-! ## Rounds -/

/-- A round of a loop: the counter, the state at the head of the loop, what the body asks, its
completion, and the state that the body leaves. -/
structure CountingRound where
  number : Int64
  start : State
  asked : Questions
  completion : Completion
  finish : State

namespace CountingRound

/-- The state after the update of a round. -/
def next (x : Name) (loop : ScopeId) (r : CountingRound) : State :=
  r.finish.counted loop x (r.number + 1)

/-- All that is asked in a round: the counter is looked at, the body runs, the counter is increased.
The first and the last are evaluated in the scope of the loop. -/
def questions (x : Name) (b : Int64) (body : Block) (loop : ScopeId) (cx : Context)
    (r : CountingRound) : Questions :=
  (.iterate (countingHead x b body loop cx), r.start) :: lookQuestions x b loop r.start ++ r.asked ++
    increaseQuestions x loop r.finish

end CountingRound

/-- The loop counts from a number on: in each round the body goes on with the loop and leaves the
counter as it was, and the counter is increased. The loop ends when the counter is not below the
bound. -/
inductive CountsUp (config : Config) (x : Name) (b : Int64) (body : Block) (loop : ScopeId)
    (cx : Context) : Int64 → State → List CountingRound → Questions → State → Prop
  | done {n : Int64} {s : State} (awake : s.stopRequested = false)
      (here : s.scopes.local? loop x = some (.int n)) (reached : ¬ n < b) :
      CountsUp config x b body loop cx n s []
        ((.iterate (countingHead x b body loop cx), s) :: lookQuestions x b loop s) s
  | again {n : Int64} {s t u : State} {first later : Questions} {c : Completion}
      {rounds : List CountingRound} (awake : s.stopRequested = false)
      (here : s.scopes.local? loop x = some (.int n)) (below : n < b)
      (run : Asks config (Exec.runBlock body (s.newChild loop).1 cx) (s.newChild loop).2 first
        (.ok c) u)
      (goesOn : c.signal.afterIteration = .again)
      (kept : u.scopes.local? loop x = some (.int n))
      (counts : CountsUp config x b body loop cx (n + 1) (u.counted loop x (n + 1)) rounds later t) :
      CountsUp config x b body loop cx n s (⟨n, s, first, c, u⟩ :: rounds)
        ((⟨n, s, first, c, u⟩ : CountingRound).questions x b body loop cx ++ later) t

variable {rounds : List CountingRound}

theorem Exec.iterateBody_awake (awake : s.stopRequested = false) (head : LoopHead) :
    iterateBody head s = (holds head.condition head.scope >>= fun h =>
      if h then do
        let c ← failing (runChild head.body head.scope head.context)
        match c.signal.afterIteration with
        | .again => do
          match head.update with
          | some e => do
            let _ ← evaluate e head.scope
            iterate head
          | none => iterate head
        | .leave => pure .empty
        | .handOn signal => pure (.ofSignal signal)
      else pure .empty) s :=
  checkStop_bind_of_awake awake _ _

/-- The condition is whether the counter is below the bound. -/
theorem asks_holds (here : s.scopes.local? loop x = some (.int n)) :
    Asks config (Exec.holds (some (counterBelow x b)) loop) s (lookQuestions x b loop s)
      (.ok (decide (n < b))) s :=
  (asks_bind_of_ok (asks_counterBelow here)).mpr
    ⟨[], asks_pure_iff.mpr ⟨rfl, rfl, rfl⟩, (List.append_nil _).symm⟩

/-- A loop that counts up ends normally, and asks for its rounds and for a last look. -/
theorem CountsUp.asks (counts : CountsUp config x b body loop cx n s rounds asked t) :
    Asks config (Exec.iterate (countingHead x b body loop cx)) s asked (.ok .empty) t := by
  induction counts with
  | done awake here reached =>
      refine asks_iterate_iff.mpr ⟨_, ?_, rfl⟩
      rw [Asks, Exec.iterateBody_awake awake]
      refine (asks_bind_of_ok (asks_holds here)).mpr ⟨[], ?_, (List.append_nil _).symm⟩
      rw [decide_eq_false reached]
      exact asks_pure_iff.mpr ⟨rfl, rfl, rfl⟩
  | @again n s t u first later c rounds awake here below run goesOn kept counts ih =>
      have block : Asks config (Exec.failing (Exec.runChild body loop cx)) s first (.ok c) u :=
        asks_mapError_iff.mpr ⟨.ok c, run, rfl⟩
      refine asks_iterate_iff.mpr ⟨lookQuestions x b loop s ++ (first ++
        (increaseQuestions x loop u ++ later)), ?_, by simp [CountingRound.questions]⟩
      rw [Asks, Exec.iterateBody_awake awake]
      refine (asks_bind_of_ok (asks_holds here)).mpr ⟨_, ?_, rfl⟩
      rw [decide_eq_true below, if_pos rfl]
      refine (asks_bind_of_ok block).mpr ⟨_, ?_, rfl⟩
      rw [goesOn]
      exact (asks_bind_of_ok (asks_increase kept)).mpr ⟨_, ih, rfl⟩

/-! ## What the rounds come to -/

/-- The loop counts exactly. -/
structure Counts (config : Config) (x : Name) (a b : Int64) (body : Block) (loop : ScopeId)
    (cx : Context) (s : State) (rounds : List CountingRound) (asked : Questions) (t : State) :
    Prop where
  /-- There is a round for each number from the first one up to the bound. -/
  length : rounds.length = (b.toInt - a.toInt).toNat
  numbers : ∀ (k : Nat) r, rounds[k]? = some r → r.number.toInt = a.toInt + k
  /-- In each round the body runs in a new scope that binds nothing. There the counter is the number
  of the round. The body ends normally or with a `continue`. -/
  runs : ∀ r ∈ rounds, ∃ child u, HoldsRow loop [] [] r.start child u ∧
    u.scopes.get? child x = some (.int r.number) ∧
    Asks config (Exec.runBlock body child cx) u r.asked (.ok r.completion) r.finish ∧
    (r.completion.signal = .none ∨ r.completion.signal = .continueLoop)
  /-- Each round starts after the update of the one before it. -/
  starts : rounds.map (·.start) = (s :: rounds.map (·.next x loop)).take rounds.length
  finish : t = (rounds.map (·.next x loop)).getLastD s
  /-- The loop asks for its rounds and for a last look at the counter. -/
  asked : asked = rounds.flatMap (·.questions x b body loop cx) ++
    (.iterate (countingHead x b body loop cx), t) :: lookQuestions x b loop t
  /-- What the bodies leave as it was in other scopes, the loop does. -/
  others : ∀ d y, d ≠ loop →
    (∀ r ∈ rounds, r.finish.scopes.local? d y = r.start.scopes.local? d y) →
    t.scopes.local? d y = s.scopes.local? d y

/-- Only a normal end and a `continue` go on with a loop. -/
theorem Signal.afterIteration_eq_again_iff {signal : Signal} :
    signal.afterIteration = .again ↔ signal = .none ∨ signal = .continueLoop := by
  cases signal <;> simp [afterIteration]

theorem local?_counted (there : loop.index < s.scopes.scopes.size) (d : ScopeId) (y : Name) :
    (s.counted loop x n).scopes.local? d y
      = if d = loop ∧ y = x then some (.int n) else s.scopes.local? d y :=
  ScopeStore.local?_define there x _ d y

/-- A new scope binds nothing. -/
theorem holdsRow_newChild (there : loop.index < s.scopes.scopes.size) :
    HoldsRow loop [] [] s (s.newChild loop).1 (s.newChild loop).2 :=
  holdsRow_iterating there (Nat.le_refl 0)

/-- In a new scope below the one of the loop, the counter is still the counter. -/
theorem HoldsRow.get?_counter {child : ScopeId} (holds : HoldsRow loop [] [] s child u)
    (here : s.scopes.local? loop x = some (.int n)) : u.scopes.get? child x = some (.int n) := by
  have bare : u.scopes.local? child x = none := by
    rw [← Option.not_isSome_iff_eq_none, ← ScopeStore.mem_names_iff, holds.names]
    exact List.not_mem_nil
  have other : loop ≠ child := by
    rintro rfl
    rw [ScopeStore.local?_eq, holds.fresh] at here
    cases here
  have above : u.scopes.local? loop x = some (.int n) := by
    rw [ScopeStore.local?_congr (holds.others loop other), here]
  have path : u.scopes.FreePath x child loop := .up bare holds.parent .here
  rw [ScopeStore.get?_eq, path.definer?, ← ScopeStore.get?_eq, ScopeStore.get?_of_local? above]

theorem CountsUp.counts (up : CountsUp config x b body loop cx n s rounds asked t) :
    Counts config x n b body loop cx s rounds asked t := by
  induction up with
  | @done n s awake here reached =>
      have above := Int.not_lt.mp (mt Int64.lt_iff_toInt_lt.mpr reached)
      refine ⟨(Int.toNat_of_nonpos (by omega)).symm, by simp, by simp, rfl, rfl, rfl, ?_⟩
      exact fun _ _ _ _ => rfl
  | @again n s t u first later c rounds awake here below run goesOn kept _ ih =>
      have less := Int64.lt_iff_toInt_lt.mp below
      have succ := toInt_add_one below
      have there := ScopeStore.lt_of_local? here
      refine ⟨?_, ?_, ?_, ?_, ?_, ?_, ?_⟩
      · rw [List.length_cons, ih.length, succ]
        omega
      · intro k r at_k
        cases k with
        | zero =>
            cases at_k
            simp
        | succ k =>
            have := ih.numbers k r at_k
            rw [this, succ]
            push_cast
            omega
      · refine List.forall_mem_cons.mpr ⟨⟨_, _, holdsRow_newChild there, ?_, run, ?_⟩, ih.runs⟩
        · exact (holdsRow_newChild there).get?_counter here
        · exact Signal.afterIteration_eq_again_iff.mp goesOn
      · simp [ih.starts, CountingRound.next]
      · rw [List.map_cons, List.getLastD_cons]
        exact ih.finish
      · simp [ih.asked]
      · intro d y other same
        obtain ⟨same, rest⟩ := List.forall_mem_cons.mp same
        rw [ih.others d y other rest, local?_counted (ScopeStore.lt_of_local? kept),
          if_neg fun h => other h.1]
        exact same

/-! ## Bodies that keep the counter -/

/-- The states in which a round may begin: the first one, and what a run of the body and the update
lead to. -/
inductive CountingState (config : Config) (x : Name) (b : Int64) (body : Block) (loop : ScopeId)
    (cx : Context) (a : Int64) (start : State) : Int64 → State → Prop
  | first : CountingState config x b body loop cx a start a start
  | next {n : Int64} {s u : State} {c : Completion}
      (head : CountingState config x b body loop cx a start n s) (below : n < b)
      (run : Runs config (Exec.runBlock body (s.newChild loop).1 cx) (s.newChild loop).2 (.ok c) u) :
      CountingState config x b body loop cx a start (n + 1) (u.counted loop x (n + 1))

/-- Each run of the body comes to an end that goes on with the loop, and leaves the counter as it
was. The task is not asked to stop. -/
def KeepsCount (config : Config) (x : Name) (a b : Int64) (body : Block) (loop : ScopeId)
    (cx : Context) (start : State) : Prop :=
  ∀ n s, CountingState config x b body loop cx a start n s → n < b → ∃ c u,
    Runs config (Exec.runBlock body (s.newChild loop).1 cx) (s.newChild loop).2 (.ok c) u ∧
      (c.signal = .none ∨ c.signal = .continueLoop) ∧
      u.scopes.local? loop x = s.scopes.local? loop x ∧ u.stopRequested = false

/-- With such a body the loop counts up. The distance to the bound shrinks with each round. -/
theorem KeepsCount.exists_countsUp {start : State}
    (keeps : KeepsCount config x a b body loop cx start)
    (head : CountingState config x b body loop cx a start n s) (awake : s.stopRequested = false)
    (here : s.scopes.local? loop x = some (.int n)) :
    ∃ rounds asked t, CountsUp config x b body loop cx n s rounds asked t := by
  generalize distance : (b.toInt - n.toInt).toNat = k
  induction k generalizing n s with
  | zero =>
      have reached : ¬ n < b := by
        rw [Int64.lt_iff_toInt_lt]
        omega
      exact ⟨[], _, s, .done awake here reached⟩
  | succ k ih =>
      have below : n < b := by
        rw [Int64.lt_iff_toInt_lt]
        omega
      obtain ⟨c, u, run, goesOn, kept, awake'⟩ := keeps n s head below
      obtain ⟨first, asks⟩ := run.asks
      have kept : u.scopes.local? loop x = some (.int n) := kept.trans here
      have counter : (u.counted loop x (n + 1)).scopes.local? loop x = some (.int (n + 1)) := by
        rw [local?_counted (ScopeStore.lt_of_local? kept), if_pos ⟨rfl, rfl⟩]
      have closer : (b.toInt - (n + 1).toInt).toNat = k := by
        rw [toInt_add_one below]
        omega
      obtain ⟨rounds, later, t, counts⟩ := ih (head.next below run) awake' counter closer
      exact ⟨_, _, t, .again awake here below asks
        (Signal.afterIteration_eq_again_iff.mpr goesOn) kept counts⟩

/-! ## The statement -/

/-- What is asked before a loop goes round: it declares its counter in a new scope. -/
def declareQuestions (q : Position) (x : Name) (a : Int64) (cx : Context) (scope : ScopeId)
    (s : State) : Questions :=
  [(.execute ⟨q, .var [x] [.literal (.int a)]⟩ (s.newChild scope).1 cx, (s.newChild scope).2),
    (.evaluate (.literal (.int a)) (s.newChild scope).1, (s.newChild scope).2)]

/-- The state in which a loop first looks at its counter. -/
def State.declared (s : State) (x : Name) (a : Int64) (scope : ScopeId) : State :=
  (s.newChild scope).2.counted (s.newChild scope).1 x a

theorem asks_declare {p : Position} :
    Asks config (Exec.execute ⟨p, .var [x] [.literal (.int a)]⟩ loop cx) s
      [(.execute ⟨p, .var [x] [.literal (.int a)]⟩ loop cx, s), (.evaluate (.literal (.int a)) loop, s)]
      (.ok .empty) (s.counted loop x a) := by
  have values : EvaluatesAll config loop [.literal (.int a)] s
      [(.evaluate (.literal (.int a)) loop, s)] [.int a] s := .cons asks_literal .nil
  have paired : declared [x] [.int a] = .ok [(x, .int a)] := rfl
  have form : Asks config (Exec.runForm p (.var [x] [.literal (.int a)]) loop cx) s
      [(.evaluate (.literal (.int a)) loop, s)] (.ok .empty) (s.counted loop x a) :=
    (asks_paired_of_taken values paired).mpr
      ⟨[], (asks_of_done rfl).mpr ⟨rfl, rfl, rfl⟩, (List.append_nil _).symm⟩
  exact asks_statement_iff.mpr ⟨_, _, form, rfl, rfl⟩

theorem CountsUp.asks_form {p q : Position}
    (counts : CountsUp config x b body (s.newChild scope).1 cx.enterLoop a (s.declared x a scope)
      rounds asked t) :
    Asks config (Exec.runForm p (countingLoop p q x a b body).form scope cx) s
      (declareQuestions q x a cx scope s ++ asked) (.ok .empty) t := by
  have declare : Asks config
      (Exec.failing (Exec.execute ⟨q, .var [x] [.literal (.int a)]⟩ (s.newChild scope).1 cx))
      (s.newChild scope).2 (declareQuestions q x a cx scope s) (.ok .empty) (s.declared x a scope) :=
    asks_mapError_iff.mpr ⟨_, asks_declare, rfl⟩
  let go := fun started : Completion =>
    if started.isNormal then
      Exec.iterate (countingHead x b body (s.newChild scope).1 cx.enterLoop)
    else pure (.ofSignal started.signal)
  exact (asks_bind_of_ok (f := go) declare).mpr ⟨asked, counts.asks, rfl⟩

/-- What a counting loop does at a position in a scope. -/
structure CountsExactly (config : Config) (p q : Position) (x : Name) (a b : Int64) (body : Block)
    (scope : ScopeId) (cx : Context) (s : State) (rounds : List CountingRound) (asked : Questions)
    (t : State) : Prop where
  /-- It declares its counter in a new scope, goes round, and ends normally. It does nothing else. -/
  run : Stmt.OnlyRun config (countingLoop p q x a b body) scope cx s
    (declareQuestions q x a cx scope s ++ asked) (.ok .empty) t
  /-- The scope of the loop is new. It stands below the surroundings and holds the counter. -/
  own : HoldsRow scope [x] [.int a] s (s.newChild scope).1 (s.declared x a scope)
  /-- There is a round for each number from the first one up to the bound. -/
  counts : Counts config x a b body (s.newChild scope).1 cx.enterLoop (s.declared x a scope) rounds
    asked t
  /-- After the loop each name means what it meant before, in every scope that was there. -/
  meaning : ∀ d y, d.index < s.scopes.scopes.size →
    t.scopes.definer? d y = s.scopes.definer? d y
  /-- A name has the value that it had before, unless a run of the body has changed the variable. -/
  value : ∀ d y, d.index < s.scopes.scopes.size →
    (∀ e, s.scopes.definer? d y = some e → ∀ r ∈ rounds,
      r.finish.scopes.local? e y = r.start.scopes.local? e y) →
    t.scopes.get? d y = s.scopes.get? d y

/-- A statement that declares nothing leaves the meaning of all names as it was. -/
theorem definer?_of_runs_execute {stmt : Stmt} {o : Outcome EngineError Completion}
    (run : Runs config (Exec.execute stmt scope cx) s o t) (silent : stmt.form.declared = [])
    {d : ScopeId} (there : d.index < s.scopes.scopes.size) (y : Name) :
    t.scopes.definer? d y = s.scopes.definer? d y := by
  have grows := (kept_of_answer (q := .execute stmt scope cx) run).scopes
  have quiet : s.scopes.Grows (fun _ _ => False) t.scopes := fun i c known => by
    obtain ⟨c', known', grown⟩ := grows i c known
    exact ⟨c', known', grown.mono fun n h => by simp [Request.declares, silent] at h⟩
  exact quiet.definer?_eq there y

/-- **A counting loop counts exactly.** If each run of its body goes on with the loop and leaves the
counter as it was, and the task is not asked to stop, then the loop ends normally after one round for
each number from the first one up to the bound, whatever these two are. In each round the body runs
in a new scope in which the counter is this number; then the counter is increased in the scope of the
loop, also after a `continue`. The surroundings see nothing of the counter. -/
theorem counting_loop_counts (config : Config) (p q : Position) (x : Name) (a b : Int64)
    (body : Block) (cx : Context) (there : scope.index < s.scopes.scopes.size)
    (awake : s.stopRequested = false)
    (keeps : KeepsCount config x a b body (s.newChild scope).1 cx.enterLoop (s.declared x a scope)) :
    ∃ rounds asked t, CountsExactly config p q x a b body scope cx s rounds asked t := by
  have own : HoldsRow scope [x] [.int a] s (s.newChild scope).1 (s.declared x a scope) :=
    holdsRow_iterating there (Nat.le_refl 1)
  have here : (s.declared x a scope).scopes.local? (s.newChild scope).1 x = some (.int a) :=
    own.values 0 x rfl (fun j later => by simp [Nat.ne_of_gt later])
  obtain ⟨rounds, asked, t, up⟩ := keeps.exists_countsUp .first awake here
  have run : Stmt.OnlyRun config (countingLoop p q x a b body) scope cx s
      (declareQuestions q x a cx scope s ++ asked) (.ok .empty) t := onlyRun_of_form up.asks_form
  have means : ∀ d y, d.index < s.scopes.scopes.size →
      t.scopes.definer? d y = s.scopes.definer? d y := fun d y inside =>
    definer?_of_runs_execute ((run _ _ _).mpr ⟨rfl, rfl, rfl⟩).runs rfl inside y
  refine ⟨rounds, asked, t, run, own, up.counts, means, fun d y inside untouched => ?_⟩
  rw [ScopeStore.get?_eq, ScopeStore.get?_eq, means d y inside]
  cases found : s.scopes.definer? d y with
  | none => rfl
  | some e =>
      -- the variable is none of the loop's own
      have other : e ≠ (s.newChild scope).1 := by
        rintro rfl
        exact absurd (ScopeStore.lt_of_definer? found) (Nat.lt_irrefl _)
      rw [Option.bind_some, Option.bind_some, up.counts.others e y other (untouched e found),
        ScopeStore.local?_congr (own.others e other)]

/-! ## A body that hides the counter -/

/-- Declares the name of the counter in the scope of the body, and goes on. -/
def hidesCounter (x : Name) : Block :=
  [⟨⟨2, 3⟩, .var [x] [.literal (.int 0)]⟩, ⟨⟨3, 3⟩, .continueLoop⟩]

theorem runs_hidesCounter {child : ScopeId} (awake : s.stopRequested = false) :
    Runs config (Exec.runBlock (hidesCounter x) child cx.enterLoop) s (.ok ⟨none, .continueLoop⟩)
      (s.counted child x 0) := by
  have inside : cx.enterLoop.inLoop = true := by
    simp [Context.enterLoop, Context.inLoop, Context.maxLoopDepth]
  have goesOn : Runs config (Exec.execute ⟨⟨3, 3⟩, .continueLoop⟩ child cx.enterLoop)
      (s.counted child x 0) (.ok (.ofSignal .continueLoop)) (s.counted child x 0) := by
    refine (asks_statement_iff.mpr ⟨[], .ok (.ofSignal .continueLoop), ?_, rfl, rfl⟩).runs
    rw [Exec.runForm, if_pos inside]
    exact asks_pure_iff.mpr ⟨rfl, rfl, rfl⟩
  refine runs_block_iff.mpr ((runs_runFrom_cons_of_normal awake asks_declare.runs).mpr ?_)
  exact runs_runFrom_cons_of_signal (c := .ofSignal .continueLoop) awake goesOn rfl

theorem keepsCount_hidesCounter (there : loop.index < s.scopes.scopes.size)
    (awake : s.stopRequested = false) :
    KeepsCount config x a b (hidesCounter x) loop cx.enterLoop s := by
  have larger : ∀ u : State, (u.newChild loop).2.scopes.scopes.size = u.scopes.scopes.size + 1 :=
    fun u => u.scopes.size_add (some loop)
  -- the loop is not stopped, and its scope stays there
  have steady : ∀ {n u}, CountingState config x b (hidesCounter x) loop cx.enterLoop a s n u →
      u.stopRequested = false ∧ loop.index < u.scopes.scopes.size := by
    intro n u head
    induction head with
    | first => exact ⟨awake, there⟩
    | @next n u w c head below run ih =>
        obtain ⟨-, rfl⟩ := run.unique (runs_hidesCounter (s := (u.newChild loop).2) ih.1)
        refine ⟨ih.1, ?_⟩
        simp only [State.counted, ScopeStore.size_define, larger]
        exact Nat.lt_succ_of_lt ih.2
  intro n u head below
  obtain ⟨awake, there⟩ := steady head
  refine ⟨_, _, runs_hidesCounter (s := (u.newChild loop).2) awake, Or.inr rfl, ?_, awake⟩
  have other : loop ≠ (u.newChild loop).1 := fun same =>
    Nat.ne_of_lt there (congrArg ScopeId.index same)
  have child : (u.newChild loop).1.index < (u.newChild loop).2.scopes.scopes.size :=
    Nat.lt_of_lt_of_eq (Nat.lt_succ_self _) (larger u).symm
  rw [local?_counted child, if_neg fun h => other h.1,
    ScopeStore.local?_congr ((holdsRow_newChild there).others loop other)]

/-- A state in which a variable has the name that a counter will have. -/
def counterOutside : State :=
  { State.initial .deferred .log with
    scopes := (ScopeStore.empty.add none).define ⟨0⟩ "i" (.str "outer") }

/-- A loop over all numbers ends after 2⁶⁴ - 1 rounds, although its body hides the counter and ends
with a `continue`. -/
theorem counting_loop_counts_all :
    (⟨0⟩ : ScopeId).index < counterOutside.scopes.scopes.size ∧
    counterOutside.stopRequested = false ∧
    KeepsCount .standard "i" Int64.minValue Int64.maxValue (hidesCounter "i")
      (counterOutside.newChild ⟨0⟩).1 Context.function.enterLoop
      (counterOutside.declared "i" Int64.minValue ⟨0⟩) ∧
    ∃ rounds asked t, CountsExactly .standard ⟨1, 1⟩ ⟨1, 5⟩ "i" Int64.minValue Int64.maxValue
        (hidesCounter "i") ⟨0⟩ .function counterOutside rounds asked t ∧
      rounds.length = Nat.pow 2 64 - 1 := by
  have there : (⟨0⟩ : ScopeId).index < counterOutside.scopes.scopes.size := by decide
  have keeps : KeepsCount .standard "i" Int64.minValue Int64.maxValue (hidesCounter "i")
      (counterOutside.newChild ⟨0⟩).1 Context.function.enterLoop
      (counterOutside.declared "i" Int64.minValue ⟨0⟩) := keepsCount_hidesCounter (by decide) rfl
  obtain ⟨rounds, asked, t, exactly⟩ := counting_loop_counts .standard ⟨1, 1⟩ ⟨1, 5⟩ "i"
    Int64.minValue Int64.maxValue (hidesCounter "i") .function there rfl keeps
  refine ⟨there, rfl, keeps, rounds, asked, t, exactly, ?_⟩
  rw [exactly.counts.length]
  decide

end StatementEngine
