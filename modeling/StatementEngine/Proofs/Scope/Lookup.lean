import StatementEngine.Proofs.Scope.Growth

/-!
# Names seen from a scope

**What a name means in a scope is decided by the nearest scope that binds it.** Along the parents one
gets up to that scope without meeting the name before (`ScopeStore.FreePath`); no other scope has a
say. From this it follows which lookups a binding changes: binding a name in a scope is seen from
exactly the scopes that have a free path to it (`get?_define_of_freePath`,
`get?_define_of_no_freePath`), and overwriting a name from exactly the scopes with the same nearest
binding (`get?_set?_of_same`, `get?_set?_of_other`).
-/

namespace StatementEngine.ScopeStore

variable {store t : ScopeStore} {s p d x : ScopeId} {n m : Name} {v : Value}

/-! ## The way up -/

/-- The first scope leads to the second one along the parents, and no scope before the second one
binds the name. -/
inductive FreePath (store : ScopeStore) (n : Name) : ScopeId → ScopeId → Prop
  | here {d : ScopeId} : FreePath store n d d
  | up {s p d : ScopeId} (free : store.local? s n = none) (above : store.parent? s = some p)
      (path : FreePath store n p d) : FreePath store n s d

/-- No scope is above itself. -/
theorem wellFounded_parent (store : ScopeStore) :
    WellFounded fun p s => store.parent? s = some p :=
  Subrelation.wf lt_of_parent? (measure ScopeId.index).wf

theorem FreePath.definer? (path : store.FreePath n s d) :
    store.definer? s n = store.definer? d n := by
  induction path with
  | here => rfl
  | up free above _ ih =>
      rw [definer?_eq, free, above]
      exact ih

theorem definer?_self (bound : (store.local? d n).isSome) : store.definer? d n = some d := by
  rw [definer?_eq, if_pos bound]

/-- The scope that a name is found in is the first one on the way up that binds it. -/
theorem definer?_eq_some_iff :
    store.definer? s n = some d ↔ store.FreePath n s d ∧ (store.local? d n).isSome := by
  constructor
  · intro found
    refine ⟨?_, local?_of_definerWithin found⟩
    induction s using store.wellFounded_parent.induction with
    | _ s ih =>
      rw [definer?_eq] at found
      split at found
      · cases found
        exact .here
      · next free =>
        obtain ⟨p, above, found⟩ := Option.bind_eq_some_iff.mp found
        exact .up (Option.not_isSome_iff_eq_none.mp free) above (ih p above found)
  · intro ⟨path, bound⟩
    rw [path.definer?, definer?_self bound]

/-- What a scope binds is a matter of the scope alone. -/
theorem local?_congr {i j : ScopeId} (same : t.scope? i = store.scope? j) (n : Name) :
    t.local? i n = store.local? j n := by
  rw [local?_eq, local?_eq, same]

/-- A name that a scope binds itself means this binding. -/
theorem get?_of_local? (here : store.local? d n = some v) : store.get? d n = some v := by
  rw [get?_eq, definer?_self (by rw [here]; rfl), Option.bind_some, here]

/-- A name that a scope does not bind means there what it means above. -/
theorem get?_of_unbound (free : store.local? d n = none) (above : store.parent? d = some p) :
    store.get? d n = store.get? p n := by
  rw [get?_eq, get?_eq, FreePath.definer? (.up free above .here)]

/-- Names mean the same in the scopes of a store when scopes are added. -/
theorem get?_of_extended {i : ScopeId} (same : ∀ j, j.index < store.scopes.size →
    t.scope? j = store.scope? j) (there : i.index < store.scopes.size) (n : Name) :
    t.get? i n = store.get? i n := by
  induction i using store.wellFounded_parent.induction with
  | _ i ih =>
    have here : t.local? i n = store.local? i n := local?_congr (same i there) n
    have above : t.parent? i = store.parent? i := by rw [parent?_eq, parent?_eq, same i there]
    cases bound : store.local? i n with
    | some w => rw [get?_of_local? bound, get?_of_local? (here.trans bound)]
    | none =>
        cases up : store.parent? i with
        | some p =>
            rw [get?_of_unbound bound up, get?_of_unbound (here.trans bound) (above.trans up)]
            exact ih p up (Nat.lt_trans (lt_of_parent? up) there)
        | none =>
            rw [get?_eq, get?_eq, definer?_eq, definer?_eq store, here, above, bound, up]
            rfl

/-! ## After a binding -/

theorem parent?_define (store : ScopeStore) (d : ScopeId) (n : Name) (v : Value) (x : ScopeId) :
    (store.define d n v).parent? x = store.parent? x := by
  rw [parent?_eq, parent?_eq, scope?_define]
  split
  · simp [Option.bind_map, Function.comp_def]
  · rfl

theorem local?_define (there : d.index < store.scopes.size) (n : Name) (v : Value) (x : ScopeId)
    (m : Name) : (store.define d n v).local? x m
      = if x = d ∧ m = n then some v else store.local? x m := by
  rw [local?_eq, local?_eq, scope?_define]
  by_cases same : d = x
  · obtain ⟨a, known⟩ := scope?_of_lt there
    subst same
    simp only [if_pos, known, Option.map_some, Option.bind_some, true_and]
    exact boundValue?_bindName n m v a.bindings
  · rw [if_neg same, if_neg fun h => same h.1.symm]

theorem names_define (there : d.index < store.scopes.size) (n : Name) (v : Value) (x : ScopeId) :
    (store.define d n v).names x
      = if x = d ∧ n ∉ store.names d then store.names x ++ [n] else store.names x := by
  simp only [names_eq, scope?_define]
  by_cases same : d = x
  · obtain ⟨a, known⟩ := scope?_of_lt there
    subst same
    simp only [if_pos, known, Option.map_some, Option.getD_some, Scope.names_bind, true_and,
      ite_not]
  · rw [if_neg same, if_neg fun h => same h.1.symm]

theorem definer?_define_of_freePath (there : d.index < store.scopes.size) (v : Value)
    (path : store.FreePath n x d) : (store.define d n v).definer? x n = some d := by
  have bound : ((store.define d n v).local? d n).isSome := by
    rw [local?_define there, if_pos ⟨rfl, rfl⟩]
    rfl
  induction path with
  | here => exact definer?_self bound
  | @up s p d free above path ih =>
      rw [definer?_eq, parent?_define, above]
      split
      · next found =>
        -- only the scope that gets the binding can have it now
        rw [local?_define there] at found
        split at found
        · next same => rw [same.1]
        · simp [free] at found
      · exact ih there bound

theorem definer?_define_of_no_freePath (there : d.index < store.scopes.size) (v : Value)
    (other : ¬ (m = n ∧ store.FreePath n x d)) :
    (store.define d n v).definer? x m = store.definer? x m := by
  induction x using store.wellFounded_parent.induction with
  | _ x ih =>
    have here : (store.define d n v).local? x m = store.local? x m := by
      rw [local?_define there, if_neg]
      rintro ⟨rfl, same⟩
      exact other ⟨same, .here⟩
    rw [definer?_eq, here, parent?_define, definer?_eq store]
    split
    · rfl
    · next free =>
      cases above : store.parent? x with
      | none => rfl
      | some p =>
          refine ih p above fun ⟨same, path⟩ => other ⟨same, ?_⟩
          exact .up (same ▸ Option.not_isSome_iff_eq_none.mp free) above path

/-- A binding is seen from every scope with a free path to it. -/
theorem get?_define_of_freePath (there : d.index < store.scopes.size) (v : Value)
    (path : store.FreePath n x d) : (store.define d n v).get? x n = some v := by
  rw [get?_eq, definer?_define_of_freePath there v path, Option.bind_some, local?_define there,
    if_pos ⟨rfl, rfl⟩]

/-- A binding is seen from nowhere else, and under no other name. -/
theorem get?_define_of_no_freePath (there : d.index < store.scopes.size) (v : Value)
    (other : ¬ (m = n ∧ store.FreePath n x d)) :
    (store.define d n v).get? x m = store.get? x m := by
  rw [get?_eq, get?_eq, definer?_define_of_no_freePath there v other]
  cases found : store.definer? x m with
  | none => rfl
  | some e =>
      rw [Option.bind_some, Option.bind_some, local?_define there, if_neg]
      -- otherwise the way to the definer would be a free path to the binding
      rintro ⟨rfl, rfl⟩
      exact other ⟨rfl, (definer?_eq_some_iff.mp found).1⟩

/-! ## After overwriting a name -/

theorem lt_of_local? {w : Value} (bound : store.local? d n = some w) :
    d.index < store.scopes.size := by
  obtain ⟨c, there, -⟩ := Option.bind_eq_some_iff.mp bound
  exact (Array.getElem?_eq_some_iff.mp there).1

theorem mem_names_iff : n ∈ store.names d ↔ (store.local? d n).isSome := by
  rw [local?_isSome]
  cases there : store.cell? d with
  | none => simp [names, slot?, there]
  | some c => simp [names, slot?, there, Bindings.slot?_isSome]

/-- To overwrite a name is to bind it in the scope that binds it already. -/
theorem set?_eq_some_iff : store.set? s n v = some t ↔
    ∃ d, store.definer? s n = some d ∧ store.define d n v = t := by
  rw [set?_eq, Option.map_eq_some_iff]

theorem lt_of_definer? (found : store.definer? s n = some d) : d.index < store.scopes.size := by
  obtain ⟨w, bound⟩ := Option.isSome_iff_exists.mp (definer?_eq_some_iff.mp found).2
  exact lt_of_local? bound

/-- There is a free path to the nearest binding from exactly the scopes whose nearest it is. -/
theorem freePath_definer?_iff (found : store.definer? s n = some d) :
    store.FreePath n x d ↔ store.definer? x n = store.definer? s n := by
  rw [found, definer?_eq_some_iff, and_iff_left (definer?_eq_some_iff.mp found).2]

theorem get?_set?_of_same (done : store.set? s n v = some t)
    (same : store.definer? x n = store.definer? s n) : t.get? x n = some v := by
  obtain ⟨d, found, rfl⟩ := set?_eq_some_iff.mp done
  exact get?_define_of_freePath (lt_of_definer? found) v ((freePath_definer?_iff found).mpr same)

theorem get?_set?_of_other (done : store.set? s n v = some t)
    (other : ¬ (m = n ∧ store.definer? x n = store.definer? s n)) :
    t.get? x m = store.get? x m := by
  obtain ⟨d, found, rfl⟩ := set?_eq_some_iff.mp done
  rw [← freePath_definer?_iff found] at other
  exact get?_define_of_no_freePath (lt_of_definer? found) v other

theorem local?_set? (done : store.set? s n v = some t) (x : ScopeId) (m : Name) :
    t.local? x m
      = if store.definer? s n = some x ∧ m = n then some v else store.local? x m := by
  obtain ⟨d, found, rfl⟩ := set?_eq_some_iff.mp done
  simp only [local?_define (lt_of_definer? found), found, Option.some_inj, eq_comm]

theorem names_set? (done : store.set? s n v = some t) (x : ScopeId) :
    t.names x = store.names x := by
  obtain ⟨d, found, rfl⟩ := set?_eq_some_iff.mp done
  rw [names_define (lt_of_definer? found), if_neg]
  exact fun ⟨_, unbound⟩ => unbound (mem_names_iff.mpr (definer?_eq_some_iff.mp found).2)

/-! ## After names have come -/

/-- A name that can be seen can still be seen when the scopes have grown. -/
theorem Grows.contains {may : ScopeId → Name → Prop} (grows : store.Grows may t)
    (seen : store.contains s n = true) : t.contains s n = true := by
  rw [contains_eq] at seen ⊢
  obtain ⟨d, found⟩ := Option.isSome_iff_exists.mp seen
  obtain ⟨path, bound⟩ := definer?_eq_some_iff.mp found
  clear found seen
  induction path with
  | @here d =>
      obtain ⟨w, bound⟩ := Option.isSome_iff_exists.mp bound
      have kept : n ∈ t.names d :=
        grows.mem_names (lt_of_local? bound) (mem_names_iff.mpr (Option.isSome_of_mem bound))
      rw [definer?_self (mem_names_iff.mp kept)]
      rfl
  | @up s p d free above path ih =>
      have above' : t.parent? s = some p := by
        rw [parent?_eq] at above ⊢
        obtain ⟨a, there, parent⟩ := Option.bind_eq_some_iff.mp above
        obtain ⟨b, there', grown⟩ := grows s a there
        rw [there', Option.bind_some, grown.parent, parent]
      rw [definer?_eq, above']
      split
      · rfl
      · exact ih bound

end StatementEngine.ScopeStore
