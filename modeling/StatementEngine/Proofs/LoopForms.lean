import StatementEngine.Proofs.EmptyScopes

/-!
# A condition loop is a loop with clauses

**A loop with at most a condition runs as a loop with clauses that only has a condition.** The two
are not the same text: a loop with clauses makes a scope for its start, its condition and its
update, and its iterations run below that scope, while a condition loop looks at its condition in
the surrounding scope. Without a start the extra scope never holds a name. So it is an empty scope
put in between, and the runs from there on are paired (`padding`), however long they go on: the
result is `loop_as_forClauses`.
-/

namespace StatementEngine

variable {config : Config} {s t t' : State} {scope : ScopeId}

/-- The scope of a loop is put in between. -/
def loopPadding (s : State) (scope : ScopeId) (there : scope.index < s.heap.size) : Padding :=
  (Padding.none s.heap.size).interpose (Nat.le_refl _) scope there

section Loop
variable (there : scope.index < s.heap.size)

theorem loopPadding_place {i : ScopeId} (old : i.index < s.heap.size) :
    (loopPadding s scope there).place i = i :=
  Padding.interpose_place _ (Nat.le_refl _) there old

theorem loopPadding_behind {j : ScopeId} (old : j.index < s.heap.size) :
    (loopPadding s scope there).behind j = j :=
  Padding.interpose_behind _ (Nat.le_refl _) there old

theorem loopPadding_behind_next : (loopPadding s scope there).behind s.scopes.next = scope :=
  Padding.interpose_behind_new _ (Nat.le_refl _) there

/-- The state in which the scope of the loop has been made is padded with it. -/
theorem loopPadding_twin (sound : s.Sound) :
    (padding (loopPadding s scope there)).Twin s.heap.size s (s.newChild scope).2 := by
  have none : s.heap.Padded (.none s.heap.size) s.heap := .none sound (Nat.le_refl _)
  exact .intro (s.heap.newChild scope) (none.interpose there) (Nat.le_refl _)

/-- A condition loop and the rest of a loop with clauses go round alike. -/
theorem loop_pairs (p : Position) (condition : Option Expr) (body : Block) (cx : Context) :
    Exec.PairsError (padding (loopPadding s scope there)) s.heap.size (Completion.Only fun _ => True)
      (Exec.located p (Exec.iterate ⟨condition, none, body, scope, cx.enterLoop⟩))
      (Exec.located p (Exec.iterate ⟨condition, none, body, s.scopes.next, cx.enterLoop⟩)) := by
  have obeys : (Request.iterate ⟨condition, none, body, scope, cx.enterLoop⟩).Obeys
      (.literals fun _ => True) :=
    ⟨fun e _ => expr_obeys_literals (fun _ => trivial) e,
      fun e _ => expr_obeys_literals (fun _ => trivial) e,
      blockObeys_literals (fun _ => trivial) _ body⟩
  exact Exec.pairs_located
    (Exec.pairs_iterate obeys ⟨there, (loopPadding_behind_next there).symm⟩)

/-- The scope of the loop is still empty in the end. -/
theorem loop_scope_of_twin
    (twin : (padding (loopPadding s scope there)).Twin s.heap.size t t') :
    t'.scopes.scope? s.scopes.next = some ⟨some scope, []⟩ := by
  cases twin with
  | intro h' padded grown =>
      have apart : (loopPadding s scope there).place
          ((loopPadding s scope there).behind s.scopes.next) ≠ s.scopes.next := by
        rw [loopPadding_behind_next, loopPadding_place there there]
        rintro rfl
        exact Nat.lt_irrefl _ there
      have size : h'.size = t.heap.size + 1 := padded.scopes.size
      have lt : s.scopes.next.index < h'.size := by
        rw [size]
        exact Nat.lt_succ_of_le grown
      obtain ⟨q, empty, stands⟩ := padded.scopes.between _ lt apart
      have above : h'.scopes.parent? s.scopes.next = some q := by
        rw [ScopeStore.parent?_eq, empty]
        rfl
      have lower : q.index < s.heap.size := ScopeStore.lt_of_parent? above
      rw [loopPadding_behind there lower, loopPadding_behind_next] at stands
      rw [← stands]
      exact empty

end Loop

/-- A loop with clauses makes its scope and goes round. -/
theorem runs_execute_forClauses_iff {p : Position} {condition : Option Expr} {body : Block}
    {cx : Context} {o : Outcome EngineError Completion} :
    Runs config (Exec.execute ⟨p, .forClauses none condition none body⟩ scope cx) s o t ↔
      Runs config
        (Exec.located p (Exec.iterate ⟨condition, none, body, s.scopes.next, cx.enterLoop⟩))
        (s.newChild scope).2 o t :=
  runs_execute_iff.trans Iff.rfl

/-- **A condition loop is a loop with clauses that only has a condition.** In a scope that is there,
one of them comes to an end exactly if the other one does. The outcome is the same then, the kind
and the position of an error included, and so is all of the state but for one scope: the loop with
clauses has put it between the surrounding scope and the scopes of the iterations, and it is empty.
The scopes that were there before are the same; those that have come since are so up to their
places, in functions and modules as well. -/
theorem loop_as_forClauses (config : Config) (p : Position) (condition : Option Expr) (body : Block)
    {scope : ScopeId} (cx : Context) {s : State} (sound : s.Sound)
    (there : scope.index < s.heap.size) :
    Exec.SameEnds config
      (Exec.execute ⟨p, .loop condition body⟩ scope cx) s
      (Exec.execute ⟨p, .forClauses none condition none body⟩ scope cx) s
      fun o t o' t' => o' = o ∧ t.PaddedSince s.heap.size 1 t' ∧
        t'.scopes.scope? s.scopes.next = some ⟨some scope, []⟩ := by
  have start := loopPadding_twin there sound
  have rounds : Exec.SameEnds config
      (Exec.execute ⟨p, .loop condition body⟩ scope cx) s
      (Exec.execute ⟨p, .forClauses none condition none body⟩ scope cx) s
      fun o t o' t' => o' = o ∧ (padding (loopPadding s scope there)).Twin s.heap.size t t' :=
    ((loop_pairs there p condition body cx).sameEnds start).congr (fun _ _ => runs_execute_iff)
      fun _ _ => runs_execute_forClauses_iff
  refine rounds.mono fun o t o' t' _ ended => ⟨ended.1, ?_, loop_scope_of_twin there ended.2⟩
  exact paddedSince_of_twin (fun _ old => loopPadding_place there old) ended.2

/-! ## A loop whose condition captures its scope -/

/-- A counter. -/
def countingState : State :=
  { State.initial .deferred .log with
    scopes := (ScopeStore.empty.add none).define ⟨0⟩ "i" (.int 0) }

/-- Whether the counter is small. A function is made on the way, which captures the scope that the
condition is evaluated in. -/
def capturingCondition : Expr :=
  .index (.list [.binary .less (.variable "i") (.literal (.int 1)), .function ⟨"f", [], []⟩])
    (.literal (.int 0))

/-- Counts and tells the number. -/
def countingBody : Block :=
  [⟨⟨2, 1⟩, .expr (.call (.literal (.function .recorder))
    [.set "i" (.binary .add (.variable "i") (.literal (.int 1)))])⟩]

/-- Both loops go round once, and tell the same. -/
theorem loop_as_forClauses_counting : countingState.Sound ∧
    ∃ t t', Runs .standard
        (Exec.execute ⟨⟨3, 1⟩, .loop (some capturingCondition) countingBody⟩ ⟨0⟩ .function)
        countingState (.ok .empty) t ∧
      Runs .standard
        (Exec.execute ⟨⟨3, 1⟩, .forClauses none (some capturingCondition) none countingBody⟩ ⟨0⟩
          .function) countingState (.ok .empty) t' ∧
      t'.recorded = #[.int 1] ∧ t'.scopes.local? ⟨0⟩ "i" = some (.int 1) ∧
      (t.closures[1]?).map (·.scope) = some ⟨0⟩ ∧
      t'.scopes.scope? ⟨1⟩ = some ⟨some ⟨0⟩, []⟩ := by
  have sound : countingState.Sound := State.sound_of_empty rfl rfl
  have there : (⟨0⟩ : ScopeId).index < countingState.heap.size := by decide
  obtain ⟨t, run, told, counted, captured⟩ : ∃ t, Runs .standard
      (Exec.execute ⟨⟨3, 1⟩, .loop (some capturingCondition) countingBody⟩ ⟨0⟩ .function)
      countingState (.ok .empty) t ∧ t.recorded = #[.int 1] ∧
      t.scopes.local? ⟨0⟩ "i" = some (.int 1) ∧ (t.closures[1]?).map (·.scope) = some ⟨0⟩ :=
    ⟨_, runs_iff_run.mpr ⟨60, rfl⟩, rfl, rfl, rfl⟩
  obtain ⟨o', t', run', rfl, padded, empty⟩ := (loop_as_forClauses .standard ⟨3, 1⟩
    (some capturingCondition) countingBody .function sound there).forth _ _ run
  have same : t'.scopes.scope? ⟨0⟩ = t.scopes.scope? ⟨0⟩ := padded.scope?_eq there
  refine ⟨sound, t, t', run, run', ?_, ?_, captured, empty⟩
  · rw [padded.rest]
    exact told
  · rw [ScopeStore.local?_eq, same, ← ScopeStore.local?_eq]
    exact counted

end StatementEngine
