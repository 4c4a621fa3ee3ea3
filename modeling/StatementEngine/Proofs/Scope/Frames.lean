import StatementEngine.Proofs.Scope.Lookup

/-!
# New scopes with bindings

**Calls, iterations and handlers run in scopes that are made for them.** Such a scope is added below
another one and given some bindings at once (`ScopeStore.framed`). It holds exactly these, a name that
is bound more than once has the last of its values, and no other scope has changed.
-/

namespace StatementEngine

variable {β : Type}

theorem boundValue?_append (name : Name) (as bs : List (Name × β)) :
    boundValue? name (as ++ bs) = (boundValue? name as).or (boundValue? name bs) := by
  induction as with
  | nil => rfl
  | cons a rest ih => grind [boundValue?]

/-- The last value of a name among names with values is the one at its last place. -/
theorem boundValue?_reverse_zip {names : List Name} {values : List β} {i : Nat} {x : Name}
    (long : names.length ≤ values.length) (here : names[i]? = some x)
    (last : ∀ j, i < j → names[j]? ≠ some x) :
    boundValue? x (names.zip values).reverse = values[i]? := by
  induction names generalizing values i with
  | nil => cases here
  | cons n names ih =>
      cases values with
      | nil => cases long
      | cons v values =>
          have long' : names.length ≤ values.length := Nat.le_of_succ_le_succ long
          rw [List.zip_cons_cons, List.reverse_cons, boundValue?_append]
          cases i with
          | zero =>
              obtain rfl : n = x := Option.some.inj here
              -- no other place has the name
              have absent : boundValue? n (names.zip values).reverse = none := by
                rw [← Option.not_isSome_iff_eq_none, boundValue?_isSome, List.map_reverse,
                  List.mem_reverse, List.map_fst_zip long']
                intro member
                obtain ⟨j, at_j⟩ := List.mem_iff_getElem?.mp member
                exact last (j + 1) (Nat.succ_pos j) at_j
              simp [absent, boundValue?]
          | succ i =>
              have found : boundValue? x (names.zip values).reverse = values[i]? :=
                ih long' here fun j later => last (j + 1) (Nat.succ_lt_succ later)
              rw [List.getElem?_cons_succ] at here
              have inside : i < values.length :=
                Nat.lt_of_lt_of_le (List.getElem?_eq_some_iff.mp here).1 long'
              rw [found, List.getElem?_cons_succ, List.getElem?_eq_getElem inside, Option.some_or]

namespace ScopeStore

variable {store : ScopeStore} {d p i : ScopeId} {name : Name} {bindings : List (Name × Value)}

theorem size_defineAll (store : ScopeStore) (d : ScopeId) (bindings : List (Name × Value)) :
    (store.defineAll d bindings).scopes.size = store.scopes.size := by
  induction bindings generalizing store with
  | nil => rfl
  | cons b rest ih => exact (ih _).trans (size_define ..)

theorem scope?_defineAll_of_ne (other : i ≠ d) (store : ScopeStore)
    (bindings : List (Name × Value)) :
    (store.defineAll d bindings).scope? i = store.scope? i := by
  induction bindings generalizing store with
  | nil => rfl
  | cons b rest ih => exact (ih _).trans (by rw [scope?_define, if_neg other.symm])

theorem parent?_defineAll (store : ScopeStore) (d : ScopeId) (bindings : List (Name × Value))
    (i : ScopeId) : (store.defineAll d bindings).parent? i = store.parent? i := by
  induction bindings generalizing store with
  | nil => rfl
  | cons b rest ih => exact (ih _).trans (parent?_define ..)

/-- A scope binds a name to the last value that it has been given, or as before. -/
theorem local?_defineAll_self (there : d.index < store.scopes.size)
    (bindings : List (Name × Value)) (name : Name) : (store.defineAll d bindings).local? d name
      = (boundValue? name bindings.reverse).or (store.local? d name) := by
  induction bindings generalizing store with
  | nil => rfl
  | cons b rest ih =>
      have there' : d.index < (store.define d b.1 b.2).scopes.size := by rwa [size_define]
      refine (ih there').trans ?_
      rw [local?_define there, List.reverse_cons, boundValue?_append, Option.or_assoc]
      grind [boundValue?]

/-- Adds a scope below another one, with bindings. -/
def framed (store : ScopeStore) (parent : ScopeId) (bindings : List (Name × Value)) : ScopeStore :=
  (store.add (some parent)).defineAll store.next bindings

theorem size_framed : (store.framed p bindings).scopes.size = store.scopes.size + 1 := by
  rw [framed, size_defineAll, size_add]

/-- The scope is new, and no other scope changes. -/
theorem scope?_framed_of_ne (other : i ≠ store.next) :
    (store.framed p bindings).scope? i = store.scope? i := by
  rw [framed, scope?_defineAll_of_ne other, scope?_add, if_neg other]

theorem parent?_framed (there : p.index < store.scopes.size) :
    (store.framed p bindings).parent? store.next = some p := by
  rw [framed, parent?_defineAll, parent?_eq, scope?_add, if_pos rfl]
  simp [there]

/-- The scope holds the bindings and nothing else. -/
theorem local?_framed (name : Name) :
    (store.framed p bindings).local? store.next name = boundValue? name bindings.reverse := by
  have there : store.next.index < (store.add (some p)).scopes.size := by
    rw [size_add]
    exact Nat.lt_succ_self _
  have bare : (store.add (some p)).local? store.next name = none := by
    rw [local?_eq, scope?_add, if_pos rfl]
    rfl
  rw [framed, local?_defineAll_self there, bare, Option.or_none]

theorem mem_names_framed_iff :
    name ∈ (store.framed p bindings).names store.next ↔ name ∈ bindings.map (·.1) := by
  rw [mem_names_iff, local?_framed, boundValue?_isSome, List.map_reverse, List.mem_reverse]

end ScopeStore

end StatementEngine
