import StatementEngine.Proofs.Assignment.InTurn

/-!
# Returning several values and receiving them

**What a function returns is what several names receive.** Several returned values become one list,
and one list of the right length is taken apart again, by assignments and by declarations alike
(`spread_collapse`). The two have rules of their own for values that do not come out even, but both
begin with `spread`: an assignment refuses what is not even then (`assigned_eq`), and a declaration
refuses surplus values and makes up for missing ones (`declared_eq`).

The main result is `return_and_receive`.
-/

namespace StatementEngine

/-! ## Spreading values -/

/-- The values for a number of names, where several names take a single list of that length apart. -/
def spread (n : Nat) (values : List Value) : List Value :=
  match values with
  | [.list items] => if 1 < n ∧ items.length = n then items else values
  | values => values

variable {n : Nat} {values vs : List Value}

/-- A single list of the right length is taken apart. -/
theorem spread_list {items : List Value} (several : 1 < n) (even : items.length = n) :
    spread n [.list items] = items := if_pos ⟨several, even⟩

/-- Anything else stays as it is. -/
theorem spread_of_not (other : ¬ (1 < n ∧ ∃ items, values = [.list items] ∧ items.length = n)) :
    spread n values = values := by
  unfold spread
  split
  · next items => exact if_neg fun h => other ⟨h.1, items, rfl, h.2⟩
  · rfl

/-- Values that have been returned as one are received as they were. -/
theorem spread_collapse (some : vs ≠ []) : spread vs.length [.collapse vs] = vs := by
  match vs with
  | [v] => exact spread_of_not fun h => absurd h.1 (Nat.lt_irrefl 1)
  | v :: w :: rest => exact spread_list (Nat.succ_lt_succ (Nat.succ_pos _)) rfl

/-- As many values as names stay as they are. -/
theorem spread_of_even (even : values.length = n) : spread n values = values := by
  refine spread_of_not fun ⟨several, items, single, _⟩ => ?_
  subst single
  exact absurd several (even ▸ Nat.lt_irrefl 1)

/-- After spreading, the values are even if they were so before or have been taken apart. -/
theorem length_spread_eq_iff : (spread n values).length = n ↔
    values.length = n ∨ (1 < n ∧ ∃ items, values = [.list items] ∧ items.length = n) := by
  by_cases apart : 1 < n ∧ ∃ items, values = [.list items] ∧ items.length = n
  · obtain ⟨several, items, rfl, even⟩ := id apart
    simp [spread_list several even, even, apart]
  · rw [spread_of_not apart, or_iff_left apart]

/-- Spreading does not lead to more values than names. -/
theorem length_spread_le (fits : values.length ≤ n) : (spread n values).length ≤ n := by
  by_cases apart : 1 < n ∧ ∃ items, values = [.list items] ∧ items.length = n
  · exact Nat.le_of_eq (length_spread_eq_iff.mpr (Or.inr apart))
  · rwa [spread_of_not apart]

/-! ## Assignments and declarations -/

/-- An assignment takes what is even after spreading. -/
theorem assigned_of_even (even : (spread n values).length = n) :
    assigned n values = .ok (spread n values) := by
  unfold assigned
  rcases length_spread_eq_iff.mp even with same | ⟨several, items, rfl, same⟩
  · rw [if_pos same, spread_of_even same]
  · have different : [Value.list items].length ≠ n := Nat.ne_of_lt several
    simp only [if_neg different, if_pos several, if_pos same, spread_list several same]

/-- An assignment refuses what is not even after spreading. -/
theorem assigned_of_uneven (uneven : (spread n values).length ≠ n) :
    ∃ k, assigned n values = .error (.cardinalityMismatch n k) := by
  rw [ne_eq, length_spread_eq_iff, not_or] at uneven
  obtain ⟨different, other⟩ := uneven
  unfold assigned
  rw [if_neg different]
  split
  · next items =>
    by_cases several : 1 < n
    · rw [if_pos several, if_neg fun even => other ⟨several, items, rfl, even⟩]
      exact ⟨_, rfl⟩
    · rw [if_neg several]
      exact ⟨_, rfl⟩
  · exact ⟨_, rfl⟩

theorem even_of_assigned (h : assigned n values = .ok vs) :
    vs = spread n values ∧ (spread n values).length = n := by
  by_cases even : (spread n values).length = n
  · rw [assigned_of_even even] at h
    cases h
    exact ⟨rfl, even⟩
  · obtain ⟨k, refused⟩ := assigned_of_uneven even
    cases h.symm.trans refused

/-- A declaration refuses surplus values. -/
theorem declared_of_surplus {names : List Name} (surplus : names.length < values.length) :
    declared names values = .error (.cardinalityMismatch names.length values.length) :=
  if_pos surplus

/-- A declaration makes up for missing values. -/
theorem declared_of_le {names : List Name} (fits : values.length ≤ names.length) :
    declared names values = .ok (names.zip (spread names.length values ++
      List.replicate (names.length - (spread names.length values).length) .nil)) :=
  if_neg (Nat.not_lt_of_le fits)

/-- What an assignment takes is what a declaration of as many names binds. -/
theorem declared_of_assigned {names : List Name} (h : assigned names.length values = .ok vs) :
    declared names values = .ok (names.zip vs) := by
  obtain ⟨rfl, even⟩ := even_of_assigned h
  have fits : values.length ≤ names.length := by
    rcases length_spread_eq_iff.mp even with same | ⟨several, items, rfl, -⟩
    · exact Nat.le_of_eq same
    · exact Nat.le_of_lt several
  rw [declared_of_le fits, even, Nat.sub_self, List.replicate_zero, List.append_nil]

variable {config : Config} {p : Position} {scope : ScopeId} {cx : Context} {s t u : State}
  {es : List Expr} {names : List Name} {targets : List Target} {op : AssignOp}
  {o : Outcome EngineError Completion} {k : ErrorKind}

/-- If the values are refused, the statement fails and nothing else happens. -/
theorem runs_refused_iff {α : Type} {pair : List Value → Except ErrorKind α}
    {rest : α → Exec Raise Completion}
    (evaluated : Runs config (Exec.evaluateAll scope es) s (.ok values) u)
    (refused : pair values = .error k) :
    Runs config (Exec.located p (do
        let vs ← Exec.evaluateAll scope es
        let paired ← Exec.ofExcept .ofKind (pair vs)
        rest paired)) s o t ↔ o = .raised ⟨k, some p⟩ ∧ t = u := by
  rw [runs_located_iff]
  simp only [runs_bind_of_ok evaluated, refused]
  constructor
  · rintro ⟨q, run, rfl⟩
    rcases runs_bind_iff.mp run with ⟨a, w, h, -⟩ | ⟨e, h, rfl⟩ | ⟨m, h, -⟩
    · cases (runs_raise_iff.mp h).1
    · obtain ⟨he, rfl⟩ := runs_raise_iff.mp h
      cases he
      exact ⟨rfl, rfl⟩
    · cases (runs_raise_iff.mp h).1
  · rintro ⟨rfl, rfl⟩
    exact ⟨_, runs_bind_iff.mpr (Or.inr (Or.inl ⟨_, runs_raise_iff.mpr ⟨rfl, rfl⟩, rfl⟩)), rfl⟩

/-- A declaration binds its names to the values that have been taken. -/
theorem runs_var_iff {bindings : List (Name × Value)}
    (evaluated : Runs config (Exec.evaluateAll scope es) s (.ok values) u)
    (taken : declared names values = .ok bindings) :
    Runs config (Exec.execute ⟨p, .var names es⟩ scope cx) s o t ↔
      o = .ok .empty ∧ t = { u with scopes := u.scopes.defineAll scope bindings } := by
  have form : ∀ q, Runs config (Exec.runVar names es scope) s q t ↔
      q = .ok .empty ∧ t = { u with scopes := u.scopes.defineAll scope bindings } := by
    intro q
    rw [Exec.runVar, runs_bind_of_ok evaluated, taken]
    refine (runs_bind_of_ok (runs_pure_iff.mpr ⟨rfl, rfl⟩)).trans ?_
    exact (runs_bind_of_ok (runs_modify_iff.mpr ⟨rfl, rfl⟩)).trans runs_pure_iff
  refine runs_execute_iff.trans (runs_located_iff.trans ?_)
  simp only [Exec.runForm, form]
  constructor
  · rintro ⟨_, ⟨rfl, rfl⟩, rfl⟩
    exact ⟨rfl, rfl⟩
  · rintro ⟨rfl, rfl⟩
    exact ⟨_, ⟨rfl, rfl⟩, rfl⟩

/-- Different names that are declared have their values afterwards, in the scope itself. -/
theorem exists_runs_var (there : scope.index < s.scopes.scopes.size) (distinct : names.Nodup)
    (evaluated : Runs config (Exec.evaluateAll scope es) s (.ok values) u)
    (even : names.length = vs.length) (taken : declared names values = .ok (names.zip vs)) :
    ∃ t, Runs config (Exec.execute ⟨p, .var names es⟩ scope cx) s (.ok .empty) t ∧
      ∀ b ∈ names.zip vs, t.scopes.local? scope b.1 = some b.2 := by
  have there' : scope.index < u.scopes.scopes.size :=
    (kept_of_evaluateAll evaluated).scopes.lt there
  have apart : ((names.zip vs).map (·.1)).Nodup := by
    rw [List.map_fst_zip (Nat.le_of_eq even)]
    exact distinct
  exact ⟨_, (runs_var_iff evaluated taken).mpr ⟨rfl, rfl⟩,
    (ScopeStore.local?_defineAll there' apart).1⟩

/-- A declaration with surplus values fails, and nothing is bound. -/
theorem runs_var_of_surplus (evaluated : Runs config (Exec.evaluateAll scope es) s (.ok values) u)
    (surplus : names.length < values.length) :
    Runs config (Exec.execute ⟨p, .var names es⟩ scope cx) s
      (.raised ⟨.cardinalityMismatch names.length values.length, some p⟩) u :=
  runs_execute_iff.mpr ((runs_refused_iff evaluated (declared_of_surplus surplus)).mpr ⟨rfl, rfl⟩)

/-- Once its values are there, a declaration fails exactly if some of them are surplus. -/
theorem var_raises_iff (evaluated : Runs config (Exec.evaluateAll scope es) s (.ok values) u) :
    (∃ e t, Runs config (Exec.execute ⟨p, .var names es⟩ scope cx) s (.raised e) t) ↔
      names.length < values.length := by
  constructor
  · rintro ⟨e, t, run⟩
    refine Nat.lt_of_not_le fun fits => ?_
    cases ((runs_var_iff evaluated (declared_of_le fits)).mp run).1
  · exact fun surplus => ⟨_, u, runs_var_of_surplus evaluated surplus⟩

/-- A declaration of different names binds those without a value to `nil`. -/
theorem exists_runs_var_padded (there : scope.index < s.scopes.scopes.size) (distinct : names.Nodup)
    (evaluated : Runs config (Exec.evaluateAll scope es) s (.ok values) u)
    (fits : values.length ≤ names.length) :
    ∃ t, Runs config (Exec.execute ⟨p, .var names es⟩ scope cx) s (.ok .empty) t ∧
      ∀ (i : Nat) x, names[i]? = some x →
        t.scopes.local? scope x = some ((spread names.length values)[i]?.getD .nil) := by
  have le : (spread names.length values).length ≤ names.length := length_spread_le fits
  obtain ⟨t, run, bound⟩ := exists_runs_var (p := p) there distinct evaluated (by simp [le])
    (declared_of_le fits)
  refine ⟨t, run, fun i x known => bound (x, _) (List.mem_iff_getElem?.mpr ⟨i, ?_⟩)⟩
  have inside : i < names.length := (List.getElem?_eq_some_iff.mp known).1
  refine List.getElem?_zip_eq_some.mpr ⟨known, ?_⟩
  rw [List.getElem?_append, List.getElem?_replicate]
  grind

theorem namedValues_zip (named : targets.map Target.name? = names.map some) (vs : List Value) :
    namedValues (targets.zip vs) = names.zip vs := by
  induction targets generalizing names vs with
  | nil =>
      obtain rfl := List.map_eq_nil_iff.mp named.symm
      rfl
  | cons target rest ih =>
      obtain ⟨x, names, rfl, here, named⟩ := List.map_eq_cons_iff.mp named.symm
      cases vs with
      | nil => rfl
      | cons v vs =>
          have later := ih named.symm vs
          simp only [namedValues] at later
          simp [namedValues, ← here, later]

/-- Different variables that are assigned to have their values afterwards. -/
theorem exists_runs_assign (named : targets.map Target.name? = names.map some)
    (distinct : names.Nodup) (seen : ∀ x ∈ names, s.scopes.contains scope x = true)
    (evaluated : Runs config (Exec.evaluateAll scope es) s (.ok values) u)
    (taken : assigned names.length values = .ok vs) :
    ∃ last t,
      Runs config (Exec.execute ⟨p, .assign targets .assign es⟩ scope cx) s (.ok (.ofValue last)) t ∧
      ∀ b ∈ names.zip vs, t.scopes.get? scope b.1 = some b.2 := by
  have length : targets.length = names.length := by simpa using congrArg List.length named
  have vars : ∀ e ∈ targets.zip vs, (e.1.name?).isSome := by
    intro e he
    have name : e.1.name? ∈ targets.map Target.name? := List.mem_map_of_mem (List.of_mem_zip he).1
    rw [named] at name
    obtain ⟨x, -, name⟩ := List.mem_map.mp name
    rw [← name]
    rfl
  have apart : ((names.zip vs).map (·.1)).Nodup := by
    rw [List.map_fst_zip (Nat.le_of_eq (length_of_assigned taken).symm)]
    exact distinct
  have visible : ∀ b ∈ names.zip vs, u.scopes.contains scope b.1 = true := fun b hb =>
    (kept_of_evaluateAll evaluated).scopes.contains (seen b.1 (List.of_mem_zip hb).1)
  obtain ⟨scopes, stored⟩ := Option.isSome_iff_exists.mp (ScopeStore.setAll?_isSome visible)
  have all : Assigns config p .assign scope (targets.zip vs) u ((targets.zip vs).map (·.2))
      { u with scopes } := assigns_plain vars (by rw [namedValues_zip named, stored])
  rw [← length] at taken
  exact ⟨_, _, (runs_assignment_iff evaluated taken).mpr (Or.inl ⟨_, all, rfl⟩),
    (ScopeStore.get?_setAll? apart stored).1⟩

/-! ## Calls that return several values -/

/-- The scope and the state in which the body of a function runs: the scope is new and holds the
parameters, and one more call has been entered. -/
def State.calling (s : State) (c : Closure) (args : List Value) : ScopeId × State :=
  let (frame, s) := s.newChild c.scope
  (frame, { s with
    scopes := s.scopes.defineAll frame (Exec.parameters c.literal.params args)
    callDepth := s.callDepth + 1 })

/-- A call of a script function whose body ends with the return of values. -/
def CallReturns (config : Config) (scope : ScopeId) (callee : Expr) (args : List Expr) (s : State)
    (vs : List Value) (u : State) : Prop :=
  ∃ id name operands s₁ c w s₂,
    Runs config (Exec.evaluateCall scope callee args) s (.ok (.closure id name, operands)) s₁ ∧
    s₁.closures[id]? = some c ∧ (∀ max ∈ config.maxCallDepth, s₁.callDepth < max) ∧
    Runs config (Exec.runBlock c.literal.body (s₁.calling c operands).1 .function)
      (s₁.calling c operands).2 (.ok ⟨w, .returned vs⟩) s₂ ∧
    u = { s₂ with callDepth := s₂.callDepth - 1 }

variable {callee : Expr} {args : List Expr}

/-- The call yields the returned values as one. -/
theorem CallReturns.evaluates (h : CallReturns config scope callee args s vs u) :
    Runs config (Exec.evaluateAll scope [.call callee args]) s (.ok [.collapse vs]) u := by
  obtain ⟨id, name, operands, s₁, c, w, s₂, called, known, below, body, rfl⟩ := h
  have entered : Runs config
      (Exec.callBlock config c.literal.body (s₁.calling c operands).1)
      { (s₁.calling c operands).2 with callDepth := s₁.callDepth } (.ok (.collapse vs))
      { s₂ with callDepth := s₂.callDepth - 1 } :=
    runs_callBlock_iff.mpr (Or.inr ⟨below, _, s₂, body, rfl, rfl⟩)
  have call : Runs config (Exec.call (.closure id name) operands) s₁ (.ok (.collapse vs))
      { s₂ with callDepth := s₂.callDepth - 1 } := by
    refine runs_call_iff.mpr ((runs_bind_of_ok (runs_read_iff.mpr ⟨rfl, rfl⟩)).mpr ?_)
    rw [known]
    exact entered
  have whole : Runs config (Exec.evaluate (.call callee args) scope) s (.ok (.collapse vs))
      { s₂ with callDepth := s₂.callDepth - 1 } :=
    runs_evaluate_iff.mpr ((runs_bind_of_ok called).mpr call)
  rw [Exec.evaluateAll, runs_bind_of_ok whole]
  exact runs_pure_iff.mpr ⟨rfl, rfl⟩

/-- A body that comes to a return of expressions ends with the return of their values. -/
theorem runs_returning {before after : Block} {q : Position} {w : Option Value}
    (normal : Runs config (Exec.runBlock before scope .function) s (.ok ⟨w, .none⟩) u)
    (awake : u.stopRequested = false)
    (evaluated : Runs config (Exec.evaluateAll scope es) u (.ok vs) t) :
    Runs config (Exec.runBlock (before ++ ⟨q, .returnValues es⟩ :: after) scope .function) s
      (.ok ⟨w, .returned vs⟩) t := by
  have statement : Runs config (Exec.execute ⟨q, .returnValues es⟩ scope .function) u
      (.ok (.ofSignal (.returned vs))) t := by
    refine runs_execute_iff.mpr (runs_located_ok_iff.mpr (Or.inl ?_))
    exact (runs_bind_of_ok evaluated).mpr (runs_pure_iff.mpr ⟨rfl, rfl⟩)
  have leaves : Runs config (Exec.runBlock (⟨q, .returnValues es⟩ :: after) scope .function) u
      (.ok (.ofSignal (.returned vs))) t := by
    refine (Exec.runBlock_append_alike [_] after _ _ _).mpr (Exec.runs_andThen_iff.mpr (Or.inl ?_))
    refine ⟨(runs_block_singleton_iff awake).mpr statement, fun c hc => ?_⟩
    cases hc
    rfl
  exact (Exec.runBlock_append_alike before _ _ _ _).mpr
    (Exec.runs_andThen_iff.mpr (Or.inr ⟨_, u, _, normal, rfl, leaves, rfl⟩))

/-! ## Returning and receiving -/

/-- The names come to have the values, by a declaration of the names and, if they have been declared,
by an assignment to them. -/
structure BoundBothWays (config : Config) (p : Position) (scope : ScopeId) (cx : Context) (s : State)
    (names : List Name) (es : List Expr) (vs : List Value) : Prop where
  declaration : ∃ t,
    Runs config (Exec.execute ⟨p, .var names es⟩ scope cx) s (.ok .empty) t ∧
    ∀ b ∈ names.zip vs, t.scopes.local? scope b.1 = some b.2
  assignment : ∀ targets, targets.map Target.name? = names.map some →
    (∀ x ∈ names, s.scopes.contains scope x = true) → ∃ last t,
      Runs config (Exec.execute ⟨p, .assign targets .assign es⟩ scope cx) s (.ok (.ofValue last)) t ∧
      ∀ b ∈ names.zip vs, t.scopes.get? scope b.1 = some b.2

/-- What an assignment takes is bound both ways. -/
theorem boundBothWays_of_assigned (there : scope.index < s.scopes.scopes.size)
    (distinct : names.Nodup) (evaluated : Runs config (Exec.evaluateAll scope es) s (.ok values) u)
    (taken : assigned names.length values = .ok vs) :
    BoundBothWays config p scope cx s names es vs where
  declaration := exists_runs_var there distinct evaluated (length_of_assigned taken).symm
    (declared_of_assigned taken)
  assignment _ named seen := exists_runs_assign named distinct seen evaluated taken

/-- How several values are returned and received in a scope, by assignments and declarations at a
position. -/
structure ReturnsAndReceives (config : Config) (p : Position) (scope : ScopeId) (cx : Context)
    (s : State) : Prop where
  /-- A body that comes to a return of expressions ends with the return of their values. -/
  returned : ∀ (before : Block) q es after frame r w t vs u,
    Runs config (Exec.runBlock before frame .function) r (.ok ⟨w, .none⟩) t →
    t.stopRequested = false → Runs config (Exec.evaluateAll frame es) t (.ok vs) u →
    Runs config (Exec.runBlock (before ++ ⟨q, .returnValues es⟩ :: after) frame .function) r
      (.ok ⟨w, .returned vs⟩) u
  /-- The values that a call returns are received by as many names. -/
  received : ∀ (names : List Name) vs callee args u, names.Nodup → names.length = vs.length →
    vs ≠ [] → CallReturns config scope callee args s vs u →
    BoundBothWays config p scope cx s names [.call callee args] vs
  /-- What an assignment takes is bound to the same names by a declaration. -/
  accepted : ∀ (names : List Name) es values vs u, names.Nodup →
    Runs config (Exec.evaluateAll scope es) s (.ok values) u →
    assigned names.length values = .ok vs → BoundBothWays config p scope cx s names es vs
  /-- An assignment refuses exactly what is neither even nor a single list of the right length for
  several targets. It fails then, and nothing is written. -/
  refused : ∀ (targets : List Target) op es values u,
    Runs config (Exec.evaluateAll scope es) s (.ok values) u →
    ((∃ k, assigned targets.length values = .error (.cardinalityMismatch targets.length k)) ↔
      values.length ≠ targets.length ∧
        ¬ (1 < targets.length ∧ ∃ items, values = [.list items] ∧ items.length = targets.length)) ∧
    ∀ k, assigned targets.length values = .error k → ∀ o t,
      Runs config (Exec.execute ⟨p, .assign targets op es⟩ scope cx) s o t ↔
        o = .raised ⟨k, some p⟩ ∧ t = u
  /-- A declaration refuses exactly surplus values. It fails then, and nothing is bound. -/
  surplus : ∀ (names : List Name) es values u,
    Runs config (Exec.evaluateAll scope es) s (.ok values) u →
    ((∃ e t, Runs config (Exec.execute ⟨p, .var names es⟩ scope cx) s (.raised e) t) ↔
      names.length < values.length) ∧
    (names.length < values.length → Runs config (Exec.execute ⟨p, .var names es⟩ scope cx) s
      (.raised ⟨.cardinalityMismatch names.length values.length, some p⟩) u)
  /-- Otherwise the names are bound to the values, or to those of a single list of the right length
  for several names, and names without a value to `nil`. -/
  padded : ∀ (names : List Name) es values u, names.Nodup →
    Runs config (Exec.evaluateAll scope es) s (.ok values) u → values.length ≤ names.length →
    ∃ t, Runs config (Exec.execute ⟨p, .var names es⟩ scope cx) s (.ok .empty) t ∧
      ∀ (i : Nat) x, names[i]? = some x →
        t.scopes.local? scope x = some ((spread names.length values)[i]?.getD .nil)

/-- **Returning several values and receiving them are inverse.** In every scope that is there, the
values that a call returns are bound to as many different names, in order, by a declaration and by an
assignment. More generally a declaration binds whatever an assignment takes. The two only differ in
what they refuse: an assignment all that does not come out even, a declaration only surplus values. -/
theorem return_and_receive (config : Config) (p : Position) (scope : ScopeId) (cx : Context)
    {s : State} (there : scope.index < s.scopes.scopes.size) :
    ReturnsAndReceives config p scope cx s where
  returned _ _ _ _ _ _ _ _ _ _ normal awake evaluated := runs_returning normal awake evaluated
  received names vs callee args u distinct length nonempty returns := by
    have spreads := spread_collapse nonempty
    refine boundBothWays_of_assigned there distinct returns.evaluates ?_
    rw [length, assigned_of_even (by rw [spreads]), spreads]
  accepted _ _ _ _ _ distinct evaluated taken :=
    boundBothWays_of_assigned there distinct evaluated taken
  refused targets op es values u evaluated := by
    refine ⟨?_, fun k refused o t => runs_execute_iff.trans (runs_refused_iff evaluated refused)⟩
    rw [← not_or, ← length_spread_eq_iff]
    refine ⟨fun ⟨k, refused⟩ even => ?_, assigned_of_uneven⟩
    rw [assigned_of_even even] at refused
    cases refused
  surplus _ _ _ _ evaluated := ⟨var_raises_iff evaluated, runs_var_of_surplus evaluated⟩
  padded _ _ _ _ distinct evaluated fits := exists_runs_var_padded there distinct evaluated fits

/-! ## A pair -/

/-- Two variables, and a function that returns two values, of which the second one is a list. -/
def pairState : State :=
  { State.initial .deferred .log with
    scopes := ((ScopeStore.empty.add none).define ⟨0⟩ "x" .nil).define ⟨0⟩ "y" .nil
    closures := #[⟨⟨"pair", [],
      [⟨⟨5, 1⟩, .returnValues [.literal (.int 1), .literal (.list [.int 2])]⟩]⟩, ⟨0⟩⟩] }

/-- Both values are received by the variables, in the order in which these are written. -/
theorem return_and_receive_pair :
    let call : Expr := .call (.literal (.function (.closure 0 "pair"))) []
    (⟨0⟩ : ScopeId).index < pairState.scopes.scopes.size ∧
    (∃ last t, Runs .standard (Exec.execute ⟨⟨1, 1⟩, .assign
        [.variable ⟨1, 1⟩ "y", .variable ⟨1, 4⟩ "x"] .assign [call]⟩ ⟨0⟩ .function) pairState
        (.ok (.ofValue last)) t ∧
      t.scopes.get? ⟨0⟩ "y" = some (.int 1) ∧ t.scopes.get? ⟨0⟩ "x" = some (.list [.int 2])) ∧
    ∃ t, Runs .standard (Exec.execute ⟨⟨1, 1⟩, .var ["y", "x"] [call]⟩ ⟨0⟩ .function) pairState
        (.ok .empty) t ∧
      t.scopes.local? ⟨0⟩ "y" = some (.int 1) ∧ t.scopes.local? ⟨0⟩ "x" = some (.list [.int 2]) := by
  intro call
  have there : (⟨0⟩ : ScopeId).index < pairState.scopes.scopes.size := by decide
  obtain ⟨u, returns⟩ : ∃ u, CallReturns .standard ⟨0⟩ (.literal (.function (.closure 0 "pair"))) []
      pairState [.int 1, .list [.int 2]] u := by
    refine ⟨_, 0, "pair", [], pairState, _, none, _, runs_iff_run.mpr ⟨10, rfl⟩, rfl, ?_,
      runs_iff_run.mpr ⟨20, rfl⟩, rfl⟩
    intro max limit
    cases limit
    decide
  have bound := (return_and_receive .standard ⟨1, 1⟩ ⟨0⟩ .function there).received ["y", "x"]
    _ _ _ u (by decide) rfl (List.cons_ne_nil _ _) returns
  obtain ⟨last, t, run, each⟩ := bound.assignment
    [.variable ⟨1, 1⟩ "y", .variable ⟨1, 4⟩ "x"] rfl (by decide)
  obtain ⟨t', run', each'⟩ := bound.declaration
  have y : ("y", .int 1) ∈ ["y", "x"].zip [Value.int 1, .list [.int 2]] := List.mem_cons_self
  have x : ("x", .list [.int 2]) ∈ ["y", "x"].zip [Value.int 1, .list [.int 2]] :=
    List.mem_cons_of_mem _ List.mem_cons_self
  exact ⟨there, ⟨last, t, run, each _ y, each _ x⟩, t', run', each' _ y, each' _ x⟩

end StatementEngine
