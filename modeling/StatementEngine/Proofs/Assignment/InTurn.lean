import StatementEngine.Proofs.Assignment.Targets
import StatementEngine.Proofs.Run.Asked

/-!
# Several assignments in one statement

**A statement with several targets is a list of statements with one target each.** All of its
right-hand sides are evaluated first; from then on it runs as the list that assigns the values they
have yielded, in order and each for itself (`assign_in_turn`). The two come to the same state and say
the same, with one exception: a list that is left by a throw keeps the value of what ran before, and
a statement that is left by a throw has none (`Outcome.bareThrow`). Scripts and calls do not see the
difference (`Outcome.asScript_bareThrow`, `Outcome.asCall_bareThrow`).

So the targets before one that fails have been written and no others, repeated targets accumulate
under a compound operator, and different variables may come in any order under a plain one.
-/

namespace StatementEngine

/-! ## Ends without a value -/

/-- The end, where a throw comes without the value of what ran before it. -/
def Outcome.bareThrow : Outcome EngineError Completion → Outcome EngineError Completion
  | .ok ⟨_, .thrown v p⟩ => .ok (.ofSignal (.thrown v p))
  | o => o

/-- A script makes the same of a throw with a value and without. -/
theorem Outcome.asScript_bareThrow (o : Outcome EngineError Completion) :
    o.bareThrow.asScript = o.asScript := by
  match o with
  | .ok ⟨_, .none⟩ | .ok ⟨_, .returned _⟩ | .ok ⟨_, .thrown ..⟩ => rfl
  | .ok ⟨_, .breakLoop⟩ | .ok ⟨_, .continueLoop⟩ | .raised _ | .panicked _ => rfl

/-- A call makes the same of a throw with a value and without. -/
theorem Outcome.asCall_bareThrow (o : Outcome EngineError Completion) :
    o.bareThrow.asCall = o.asCall := by
  match o with
  | .ok ⟨_, .none⟩ | .ok ⟨_, .returned _⟩ | .ok ⟨_, .thrown ..⟩ => rfl
  | .ok ⟨_, .breakLoop⟩ | .ok ⟨_, .continueLoop⟩ | .raised _ | .panicked _ => rfl

/-- The end of a statement at a position whose assignment ends as given. -/
def Outcome.asAssignment (p : Position) (q : Outcome Raise (PendingWrite × Value)) :
    Outcome EngineError Completion :=
  (q.mapValue fun r => .ofValue r.2).located p

variable {config : Config} {p : Position} {op : AssignOp} {scope : ScopeId} {cx : Context}
  {s t u : State} {target : Target} {v : Value} {q : Outcome Raise (PendingWrite × Value)}
  {o : Outcome EngineError Completion}

/-- An assignment that does not get ready throws or fails. -/
theorem Outcome.asAssignment_cases (fails : ∀ r, q ≠ .ok r) :
    (∃ v at?, q.asAssignment p = .ok (.ofSignal (.thrown v at?))) ∨
      (∃ e, q.asAssignment p = .raised e) ∨ ∃ m, q.asAssignment p = .panicked m := by
  match q with
  | .ok r => exact absurd rfl (fails r)
  | .raised (.thrown v at?) => exact Or.inl ⟨_, _, rfl⟩
  | .raised (.failed e) => exact Or.inr (Or.inl ⟨_, rfl⟩)
  | .panicked m => exact Or.inr (Or.inr ⟨_, rfl⟩)

theorem Outcome.not_normal_of_asAssignment (fails : ∀ r, q ≠ .ok r) {c : Completion}
    (h : .ok c = q.asAssignment p) : c.isNormal = false := by
  rcases Outcome.asAssignment_cases (p := p) fails with ⟨v, at?, h'⟩ | ⟨e, h'⟩ | ⟨m, h'⟩
  all_goals
    rw [h'] at h
    cases h
  rfl

/-- Whatever ran before, the bare end is that of the assignment. -/
theorem Outcome.bareThrow_following (fails : ∀ r, q ≠ .ok r) (first : Completion) :
    ((q.asAssignment p).mapValue (·.following first)).bareThrow = q.asAssignment p := by
  rcases Outcome.asAssignment_cases (p := p) fails with ⟨v, at?, h⟩ | ⟨e, h⟩ | ⟨m, h⟩
  all_goals rw [h]; rfl

/-! ## The statement -/

/-- As many values are assigned as there are targets. -/
theorem length_of_assigned {n : Nat} {values vs : List Value} (h : assigned n values = .ok vs) :
    vs.length = n := by
  unfold assigned at h
  split at h
  · next even =>
    cases h
    exact even
  · grind

variable {targets : List Target} {es : List Expr} {values vs : List Value}

/-- When its right-hand sides have been evaluated and paired, an assignment statement assigns to all
of its targets, or ends at the first one that does not get ready. -/
theorem runs_assignment_iff
    (evaluated : Runs config (Exec.evaluateAll scope es) s (.ok values) u)
    (paired : assigned targets.length values = .ok vs) :
    Runs config (Exec.execute ⟨p, .assign targets op es⟩ scope cx) s o t ↔
      (∃ written, Assigns config p op scope (targets.zip vs) u written t ∧
        o = .ok (.ofValue (written.getLastD .nil))) ∨
      ∃ written q, AssignsUntil config p op scope (targets.zip vs) u written q t ∧
        o = q.asAssignment p := by
  have form : ∀ r, Runs config (Exec.runAssign p targets op es scope) s r t ↔
      ∃ q, Runs config (Exec.assignEach p op scope (targets.zip vs) .nil) u q t ∧
        r = q.mapValue .ofValue := by
    intro r
    rw [Exec.runAssign, runs_bind_of_ok evaluated, paired]
    refine (runs_bind_of_ok (runs_pure_iff.mpr ⟨rfl, rfl⟩)).trans ?_
    rw [runs_bind_or_iff Completion.ofValue]
    constructor
    · rintro (⟨last, w, run, h⟩ | ⟨q, run, -, rfl⟩)
      · obtain ⟨rfl, rfl⟩ := runs_pure_iff.mp h
        exact ⟨_, run, rfl⟩
      · exact ⟨q, run, rfl⟩
    · rintro ⟨q, run, rfl⟩
      cases q with
      | ok last => exact Or.inl ⟨last, t, run, runs_pure_iff.mpr ⟨rfl, rfl⟩⟩
      | raised e => exact Or.inr ⟨_, run, by simp, rfl⟩
      | panicked m => exact Or.inr ⟨_, run, by simp, rfl⟩
  have same : ∀ q : Outcome Raise (PendingWrite × Value),
      ((q.mapValue Prod.snd).mapValue Completion.ofValue).located p = q.asAssignment p := by
    intro q
    cases q <;> rfl
  refine runs_execute_iff.trans (runs_located_iff.trans ?_)
  simp only [Exec.runForm, form, runs_assignEach_iff]
  constructor
  · rintro ⟨_, ⟨_, ⟨written, all, rfl⟩ | ⟨written, q, stopped, rfl⟩, rfl⟩, rfl⟩
    · exact Or.inl ⟨written, all, rfl⟩
    · exact Or.inr ⟨written, q, stopped, same q⟩
  · rintro (⟨written, all, rfl⟩ | ⟨written, q, stopped, rfl⟩)
    · exact ⟨_, ⟨_, Or.inl ⟨written, all, rfl⟩, rfl⟩, rfl⟩
    · exact ⟨_, ⟨_, Or.inr ⟨written, q, stopped, rfl⟩, rfl⟩, (same q).symm⟩

theorem runs_evaluateAll_singleton {e : Expr} (h : Runs config (Exec.evaluate e scope) s (.ok v) t) :
    Runs config (Exec.evaluateAll scope [e]) s (.ok [v]) t := by
  rw [Exec.evaluateAll, runs_bind_of_ok h]
  exact runs_pure_iff.mpr ⟨rfl, rfl⟩

/-- Values that are written out are evaluated at once. -/
theorem runs_evaluateAll_literals (vs : List Value) :
    Runs config (Exec.evaluateAll scope (vs.map .literal)) s (.ok vs) s := by
  induction vs with
  | nil => exact runs_pure_iff.mpr ⟨rfl, rfl⟩
  | cons v vs ih =>
      have first : Runs config (Exec.evaluate (.literal v) scope) s (.ok v) s :=
        runs_evaluate_iff.mpr (runs_pure_iff.mpr ⟨rfl, rfl⟩)
      rw [List.map_cons, Exec.evaluateAll, runs_bind_of_ok first, runs_bind_of_ok ih]
      exact runs_pure_iff.mpr ⟨rfl, rfl⟩

/-- A value that is written out is assigned to its one target, or the target does not get ready. -/
theorem runs_single_iff :
    Runs config (Exec.execute ⟨p, .assign [target] op [.literal v]⟩ scope cx) s o t ↔
      (∃ w a u scopes, Runs config (Exec.prepareAssign p op target v scope) s (.ok (w, a)) u ∧
        u.scopes.set? scope w.name w.content = some scopes ∧ o = .ok (.ofValue a) ∧
        t = { u with scopes }) ∨
      ∃ q, Runs config (Exec.prepareAssign p op target v scope) s q t ∧ (∀ r, q ≠ .ok r) ∧
        o = q.asAssignment p := by
  refine (runs_assignment_iff (runs_evaluateAll_literals [v]) rfl).trans ?_
  simp only [List.zip_cons_cons, List.zip_nil_right, assigns_cons_iff, assignsUntil_cons_iff]
  constructor
  · rintro (⟨_, ⟨w, a, u, scopes, _, rfl, ready, stored, ⟨⟩⟩, rfl⟩ |
      ⟨_, q, ⟨rfl, run, fails⟩ | ⟨w, a, u, scopes, _, rfl, ready, stored, stopped⟩, rfl⟩)
    · exact Or.inl ⟨w, a, u, scopes, ready, stored, rfl, rfl⟩
    · exact Or.inr ⟨q, run, fails, rfl⟩
    · exact absurd stopped not_assignsUntil_nil
  · rintro (⟨w, a, u, scopes, ready, stored, rfl, rfl⟩ | ⟨q, run, fails, rfl⟩)
    · exact Or.inl ⟨[a], ⟨w, a, u, scopes, [], rfl, ready, stored, .nil⟩, rfl⟩
    · exact Or.inr ⟨[], q, Or.inl ⟨rfl, run, fails⟩, rfl⟩

/-- Expressions are evaluated as a list of them is, and keep the same frame. -/
theorem kept_of_evaluateAll (h : Runs config (Exec.evaluateAll scope es) s (.ok values) u) :
    s.KeptSince (Request.evaluate (.list es) scope).declares u := by
  have list : Runs config (Exec.evaluate (.list es) scope) s (.ok (.list values)) u :=
    runs_evaluate_iff.mpr ((runs_bind_of_ok h).mpr (runs_pure_iff.mpr ⟨rfl, rfl⟩))
  exact kept_of_answer list

/-! ## The list of statements -/

/-- One assignment statement for each target, all of them at the same position. -/
def singles (p : Position) (op : AssignOp) (pairs : List (Target × Value)) : Block :=
  pairs.map fun e => ⟨p, .assign [e.1] op [.literal e.2]⟩

/-- A list in which nothing ran before ends as it is. -/
theorem Outcome.following_empty (r : Outcome EngineError Completion) :
    r.mapValue (·.following .empty) = r := by
  cases r with
  | ok c => simp [Outcome.mapValue, Completion.following, Completion.empty]
  | raised e | panicked m => rfl

/-- The last value of a list is that of its rest, or else the first. -/
theorem Outcome.following_last (r : Outcome EngineError Completion) (a : Value)
    (written : List Value) :
    (r.mapValue (·.following ⟨written.getLast?, .none⟩)).mapValue (·.following (.ofValue a))
      = r.mapValue (·.following ⟨(a :: written).getLast?, .none⟩) := by
  cases r with
  | ok c =>
      simp only [Outcome.mapValue, Completion.following, Completion.ofValue, Option.or_assoc,
        List.getLast?_cons]
      cases written.getLast? <;> rfl
  | raised e | panicked m => rfl

/-- The list of single assignments assigns to one target after the other, or ends at the first one
that does not get ready. -/
theorem runs_singles_iff {pairs : List (Target × Value)} (idle : s.running = none) :
    Runs config (Exec.runBlock (singles p op pairs) scope cx) s o t ↔
      (∃ written, Assigns config p op scope pairs s written t ∧
        o = .ok ⟨written.getLast?, .none⟩) ∨
      ∃ written q, AssignsUntil config p op scope pairs s written q t ∧
        o = (q.asAssignment p).mapValue (·.following ⟨written.getLast?, .none⟩) := by
  induction pairs generalizing s o with
  | nil =>
      refine runs_block_iff.trans (runs_pure_iff.trans ?_)
      constructor
      · rintro ⟨rfl, rfl⟩
        exact Or.inl ⟨[], .nil, rfl⟩
      · rintro (⟨_, ⟨⟩, rfl⟩ | ⟨_, _, stopped, -⟩)
        · exact ⟨rfl, rfl⟩
        · exact absurd stopped not_assignsUntil_nil
  | cons e rest ih =>
      obtain ⟨target, v⟩ := e
      refine (Exec.runBlock_append_alike [⟨p, .assign [target] op [.literal v]⟩]
        (singles p op rest) s o t).trans (Exec.runs_andThen_iff.trans ?_)
      have awake : s.stopRequested = false := by simp [State.stopRequested, idle]
      simp only [runs_block_singleton_iff awake]
      have idle' : ∀ {c u}, Runs config
          (Exec.execute ⟨p, .assign [target] op [.literal v]⟩ scope cx) s (.ok c) u →
          u.running = none := fun run => (kept_of_answer run).running.trans idle
      have first : ∀ {w a u scopes},
          Runs config (Exec.prepareAssign p op target v scope) s (.ok (w, a)) u →
          u.scopes.set? scope w.name w.content = some scopes →
          Runs config (Exec.execute ⟨p, .assign [target] op [.literal v]⟩ scope cx) s
            (.ok (.ofValue a)) { u with scopes } := fun ready stored =>
        runs_single_iff.mpr (Or.inl ⟨_, _, _, _, ready, stored, rfl, rfl⟩)
      constructor
      · rintro (⟨run, stops⟩ | ⟨c, u, r, run, normal, later, rfl⟩)
        · rcases runs_single_iff.mp run with ⟨w, a, u, scopes, -, -, rfl, rfl⟩ | ⟨q, hq, fails, rfl⟩
          · cases stops _ rfl
          · exact Or.inr ⟨[], q, assignsUntil_cons_iff.mpr (Or.inl ⟨rfl, hq, fails⟩),
              (Outcome.following_empty _).symm⟩
        · rcases runs_single_iff.mp run with
            ⟨w, a, u, scopes, ready, stored, hc, rfl⟩ | ⟨q, -, fails, hc⟩
          · cases hc
            rcases (ih (idle' run)).mp later with ⟨written, all, rfl⟩ | ⟨written, q, stopped, rfl⟩
            · exact Or.inl ⟨a :: written, .cons ready stored all,
                Outcome.following_last (.ok .empty) a written⟩
            · exact Or.inr ⟨a :: written, q, assignsUntil_cons_iff.mpr
                (Or.inr ⟨w, a, u, scopes, written, rfl, ready, stored, stopped⟩),
                Outcome.following_last _ a written⟩
          · simp [Outcome.not_normal_of_asAssignment fails hc] at normal
      · rintro (⟨_, all, rfl⟩ | ⟨_, q, stopped, rfl⟩)
        · obtain ⟨w, a, u, scopes, written, rfl, ready, stored, all⟩ := assigns_cons_iff.mp all
          have run := first ready stored
          exact Or.inr ⟨.ofValue a, _, _, run, rfl, (ih (idle' run)).mpr (Or.inl ⟨written, all, rfl⟩),
            (Outcome.following_last (.ok .empty) a written).symm⟩
        · rcases assignsUntil_cons_iff.mp stopped with ⟨rfl, hq, fails⟩ |
            ⟨w, a, u, scopes, written, rfl, ready, stored, stopped⟩
          · have bare := Outcome.following_empty (q.asAssignment p)
            exact Or.inl ⟨runs_single_iff.mpr (Or.inr ⟨q, hq, fails, bare⟩),
              fun c hc => Outcome.not_normal_of_asAssignment fails (hc.symm.trans bare)⟩
          · have run := first ready stored
            exact Or.inr ⟨.ofValue a, _, _, run, rfl,
              (ih (idle' run)).mpr (Or.inr ⟨written, q, stopped, rfl⟩),
              (Outcome.following_last _ a written).symm⟩

/-! ## Both of them -/

/-- What a statement does that assigns to several targets, if its right-hand sides have led to the
state `u` and the values are paired with the targets as given. -/
structure AssignsInTurn (config : Config) (p : Position) (targets : List Target) (op : AssignOp)
    (es : List Expr) (scope : ScopeId) (cx : Context) (s : State) (pairs : List (Target × Value))
    (u : State) : Prop where
  /-- It runs as the list of single assignments does from that state. -/
  inTurn : ∀ o t, Runs config (Exec.execute ⟨p, .assign targets op es⟩ scope cx) s o t ↔
    ∃ o', Runs config (Exec.runBlock (singles p op pairs) scope cx) u o' t ∧ o = o'.bareThrow
  /-- Scripts and calls make the same of both. -/
  boundaries : ∀ o t o' t', Runs config (Exec.execute ⟨p, .assign targets op es⟩ scope cx) s o t →
    Runs config (Exec.runBlock (singles p op pairs) scope cx) u o' t' →
    t = t' ∧ o.asScript = o'.asScript ∧ o.asCall = o'.asCall
  /-- It writes all targets and has the last value, or it writes the targets before the first one that
  does not get ready and ends as that one does. -/
  ends : ∀ o t, Runs config (Exec.execute ⟨p, .assign targets op es⟩ scope cx) s o t ↔
    (∃ written, Assigns config p op scope pairs u written t ∧
      o = .ok ⟨written.getLast?, .none⟩) ∨
    ∃ written q, AssignsUntil config p op scope pairs u written q t ∧ o = q.asAssignment p
  /-- Variables accumulate under a compound operator, however they are mixed. -/
  accumulates : op.isCompound = true →
    (∀ e ∈ pairs, ∃ x old new, e.1.name? = some x ∧ u.scopes.get? scope x = some old ∧
      (valuesFor x pairs).foldlM op.apply old = .ok new) →
    ∃ last t,
      Runs config (Exec.execute ⟨p, .assign targets op es⟩ scope cx) s (.ok (.ofValue last)) t ∧
      ∀ x old new, u.scopes.get? scope x = some old →
        (valuesFor x pairs).foldlM op.apply old = .ok new → t.scopes.get? scope x = some new
  /-- An element accumulates under a compound operator, if its key does not depend on it. -/
  element : op.isCompound = true → ∀ x k key container old new updated,
    (∀ target ∈ targets, ∃ q, target = .place q (.index (.variable x) k)) →
    k.YieldsApartFrom config scope x key u → u.scopes.get? scope x = some container →
    container.element key = .ok old → (pairs.map (·.2)).foldlM op.apply old = .ok new →
    container.withElement key new = .ok updated →
    ∃ scopes, u.scopes.set? scope x updated = some scopes ∧
      Runs config (Exec.execute ⟨p, .assign targets op es⟩ scope cx) s (.ok (.ofValue new))
        { u with scopes }
  /-- Different variables that can be seen may come in any order under the plain operator. -/
  anyOrder : op = .assign →
    (∀ e ∈ pairs, ∃ x, e.1.name? = some x ∧ u.scopes.contains scope x = true) →
    (pairs.map (·.1.name?)).Nodup → ∃ t, ∀ pairs' : List (Target × Value), pairs'.Perm pairs →
      ∃ last last',
      Runs config (Exec.execute ⟨p, .assign targets op es⟩ scope cx) s (.ok (.ofValue last)) t ∧
      Runs config (Exec.execute
        ⟨p, .assign (pairs'.map (·.1)) op ((pairs'.map (·.2)).map .literal)⟩ scope cx) u
        (.ok (.ofValue last')) t

/-- If there is a target, the value of the statement is the last one that has been assigned. -/
theorem runs_assignment_last_iff
    (evaluated : Runs config (Exec.evaluateAll scope es) s (.ok values) u)
    (paired : assigned targets.length values = .ok vs) (targeted : targets.zip vs ≠ []) :
    Runs config (Exec.execute ⟨p, .assign targets op es⟩ scope cx) s o t ↔
      (∃ written, Assigns config p op scope (targets.zip vs) u written t ∧
        o = .ok ⟨written.getLast?, .none⟩) ∨
      ∃ written q, AssignsUntil config p op scope (targets.zip vs) u written q t ∧
        o = q.asAssignment p := by
  refine (runs_assignment_iff evaluated paired).trans (or_congr_left ?_)
  refine exists_congr fun written => and_congr_right fun all => ?_
  rw [all.last_eq targeted]

/-- The statement runs as the list of single assignments, but for what a throw leaves behind. -/
theorem runs_assignment_iff_singles (idle : u.running = none)
    (evaluated : Runs config (Exec.evaluateAll scope es) s (.ok values) u)
    (paired : assigned targets.length values = .ok vs) (targeted : targets.zip vs ≠ []) :
    Runs config (Exec.execute ⟨p, .assign targets op es⟩ scope cx) s o t ↔
      ∃ o', Runs config (Exec.runBlock (singles p op (targets.zip vs)) scope cx) u o' t ∧
        o = o'.bareThrow := by
  rw [runs_assignment_last_iff evaluated paired targeted]
  simp only [runs_singles_iff idle]
  constructor
  · rintro (⟨written, all, rfl⟩ | ⟨written, q, stopped, rfl⟩)
    · exact ⟨_, Or.inl ⟨written, all, rfl⟩, rfl⟩
    · exact ⟨_, Or.inr ⟨written, q, stopped, rfl⟩,
        (Outcome.bareThrow_following stopped.fails _).symm⟩
  · rintro ⟨_, ⟨written, all, rfl⟩ | ⟨written, q, stopped, rfl⟩, rfl⟩
    · exact Or.inl ⟨written, all, rfl⟩
    · exact Or.inr ⟨written, q, stopped, Outcome.bareThrow_following stopped.fails _⟩

/-- If all targets can be written, the statement that assigns the values written out does so. -/
theorem runs_assignment_of_literals {pairs : List (Target × Value)} {written : List Value}
    (all : Assigns config p op scope pairs s written t) :
    Runs config (Exec.execute
      ⟨p, .assign (pairs.map (·.1)) op ((pairs.map (·.2)).map .literal)⟩ scope cx) s
      (.ok (.ofValue (written.getLastD .nil))) t := by
  have even : assigned (pairs.map (·.1)).length (pairs.map (·.2)) = .ok (pairs.map (·.2)) := by
    simp [assigned]
  have zipped : pairs = (pairs.map (·.1)).zip (pairs.map (·.2)) := List.zip_of_prod rfl rfl
  rw [zipped] at all
  exact (runs_assignment_iff (runs_evaluateAll_literals _) even).mpr (Or.inl ⟨written, all, rfl⟩)

/-- **Several assignments in one statement are made in turn.** Outside of tasks, let the right-hand
sides of an assignment to at least one target be evaluated, which leads to the state `u`, and let
their values be paired with the targets. From every state and with every operator the statement then
ends exactly as the list of statements that assign these values to one target each, run from `u`: in
the same state and with the same error or signal. Its value is the last one that has been assigned;
only if a target throws, the statement has no value where the list keeps the last one. -/
theorem assign_in_turn (config : Config) (p : Position) {targets : List Target} (op : AssignOp)
    {es : List Expr} (scope : ScopeId) (cx : Context) {s u : State} {values vs : List Value}
    (nonempty : targets ≠ []) (idle : s.running = none)
    (evaluated : Runs config (Exec.evaluateAll scope es) s (.ok values) u)
    (paired : assigned targets.length values = .ok vs) :
    AssignsInTurn config p targets op es scope cx s (targets.zip vs) u := by
  have idle' : u.running = none := (kept_of_evaluateAll evaluated).running.trans idle
  have targeted : targets.zip vs ≠ [] := by
    simpa [← List.length_eq_zero_iff, length_of_assigned paired] using nonempty
  have inTurn : ∀ o t, Runs config (Exec.execute ⟨p, .assign targets op es⟩ scope cx) s o t ↔
      ∃ o', Runs config (Exec.runBlock (singles p op (targets.zip vs)) scope cx) u o' t ∧
        o = o'.bareThrow := fun o t =>
    runs_assignment_iff_singles idle' evaluated paired targeted
  have written : ∀ {values' t}, Assigns config p op scope (targets.zip vs) u values' t →
      Runs config (Exec.execute ⟨p, .assign targets op es⟩ scope cx) s
        (.ok (.ofValue (values'.getLastD .nil))) t := fun all =>
    (runs_assignment_iff evaluated paired).mpr (Or.inl ⟨_, all, rfl⟩)
  refine { inTurn, boundaries := ?boundaries, ends := ?ends, accumulates := ?accumulates,
           element := ?element, anyOrder := ?anyOrder }
  case boundaries =>
    intro o t o' t' run list
    obtain ⟨o', list', rfl⟩ := (inTurn o t).mp run
    obtain ⟨rfl, rfl⟩ := list.unique list'
    exact ⟨rfl, o'.asScript_bareThrow, o'.asCall_bareThrow⟩
  case ends =>
    exact fun o t => runs_assignment_last_iff evaluated paired targeted
  case accumulates =>
    intro compound folds
    obtain ⟨values', t, all, accumulated⟩ := exists_assigns_accumulated (p := p) compound folds
    exact ⟨_, t, written all, accumulated⟩
  case element =>
    intro compound x k key container old new updated places yields known element fold changed
    have each : ∀ e ∈ targets.zip vs, ∃ q, e.1 = .place q (.index (.variable x) k) :=
      fun e he => places e.1 (List.of_mem_zip he).1
    obtain ⟨values', scopes, all, stored, ended⟩ := exists_assigns_element (p := p) compound
      targeted each yields known element fold changed
    have run := written all
    rw [all.last_eq targeted, ended] at run
    exact ⟨scopes, stored, run⟩
  case anyOrder =>
    rintro rfl seen distinct
    obtain ⟨t, any⟩ := exists_assigns_perm (p := p) seen distinct
    exact ⟨t, fun pairs' perm => ⟨_, _, written (any _ (List.Perm.refl _)),
      runs_assignment_of_literals (any pairs' perm)⟩⟩

/-! ## A counter and a list -/

/-- The counter is assigned to before and after an element of the list. All hypotheses are met, and
the counter accumulates. -/
theorem assign_in_turn_counted :
    let targets : List Target := [.variable ⟨2, 1⟩ "i",
      .place ⟨2, 4⟩ (.index (.variable "xs") (.variable "i")), .variable ⟨2, 11⟩ "i"]
    let values : List Value := [.int 1, .int 5, .int 1]
    targets ≠ [] ∧ countedList.running = none ∧
    Runs .standard (Exec.evaluateAll ⟨0⟩ (values.map .literal)) countedList (.ok values) countedList ∧
    assigned targets.length values = .ok values ∧
    ∃ t, Runs .standard (Exec.runBlock (singles ⟨2, 1⟩ .add (targets.zip values)) ⟨0⟩ .function)
        countedList (.ok (.ofValue (.int 2))) t ∧
      t.scopes.get? ⟨0⟩ "i" = some (.int 2) ∧
      t.scopes.get? ⟨0⟩ "xs" = some (.list [.int 10, .int 25, .int 30]) := by
  intro targets values
  have evaluated : Runs .standard (Exec.evaluateAll ⟨0⟩ (values.map .literal)) countedList
      (.ok values) countedList := runs_evaluateAll_literals values
  obtain ⟨t, run, counted, changed⟩ : ∃ t, Runs .standard
      (Exec.execute ⟨⟨2, 1⟩, .assign targets .add (values.map .literal)⟩ ⟨0⟩ .function) countedList
      (.ok (.ofValue (.int 2))) t ∧ t.scopes.get? ⟨0⟩ "i" = some (.int 2) ∧
      t.scopes.get? ⟨0⟩ "xs" = some (.list [.int 10, .int 25, .int 30]) :=
    ⟨_, runs_iff_run.mpr ⟨60, rfl⟩, rfl, rfl⟩
  have turns := assign_in_turn .standard ⟨2, 1⟩ .add ⟨0⟩ .function (List.cons_ne_nil _ _) rfl
    evaluated (rfl : assigned targets.length values = .ok values)
  obtain ⟨o', list, -⟩ := (turns.inTurn _ _).mp run
  obtain ⟨-, script, -⟩ := turns.boundaries _ _ _ _ run list
  obtain rfl := Outcome.asScript_eq_normal_iff.mp script.symm
  exact ⟨List.cons_ne_nil _ _, rfl, evaluated, rfl, t, list, counted, changed⟩

/-- A key that throws after another target has been written: the statement has no value, and the
list keeps the one that has been written. -/
theorem not_assign_as_list :
    ¬ ∀ (config : Config) (p : Position) (targets : List Target) (op : AssignOp) (es : List Expr)
        (scope : ScopeId) (cx : Context) (s u : State) (values vs : List Value),
      targets ≠ [] → s.running = none →
      Runs config (Exec.evaluateAll scope es) s (.ok values) u →
      assigned targets.length values = .ok vs →
      ∀ o t, Runs config (Exec.execute ⟨p, .assign targets op es⟩ scope cx) s o t ↔
        Runs config (Exec.runBlock (singles p op (targets.zip vs)) scope cx) u o t := by
  intro same
  let targets : List Target := [.variable ⟨2, 1⟩ "i",
    .place ⟨2, 4⟩ (.index (.variable "xs") (.raise (.literal (.int 7))))]
  let values : List Value := [.int 5, .int 6]
  obtain ⟨t, statement⟩ : ∃ t, Runs .standard
      (Exec.execute ⟨⟨2, 1⟩, .assign targets .assign (values.map .literal)⟩ ⟨0⟩ .function)
      countedList (.ok ⟨none, .thrown (.int 7) ⟨2, 4⟩⟩) t := ⟨_, runs_iff_run.mpr ⟨60, rfl⟩⟩
  obtain ⟨u, list⟩ : ∃ u, Runs .standard
      (Exec.runBlock (singles ⟨2, 1⟩ .assign (targets.zip values)) ⟨0⟩ .function)
      countedList (.ok ⟨some (.int 5), .thrown (.int 7) ⟨2, 4⟩⟩) u :=
    ⟨_, runs_iff_run.mpr ⟨60, rfl⟩⟩
  have also := (same .standard ⟨2, 1⟩ targets .assign (values.map .literal) ⟨0⟩ .function
    countedList countedList values values (List.cons_ne_nil _ _) rfl
    (runs_evaluateAll_literals values) rfl _ _).mp statement
  cases (also.unique list).1

end StatementEngine
