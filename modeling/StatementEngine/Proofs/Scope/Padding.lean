import StatementEngine.Proofs.Scope.Growth

/-!
# Empty scopes in between

**A store may have more scopes than another one and show the same names.** A scope without names of
its own shows what the scope above it shows, so nobody can tell whether it is there. A `Padding`
says how the scopes of two such stores correspond: where each scope of the first is found in the
second (`place`), and for which scope of the first each scope of the second stands (`behind`). The
scopes that have been put in between are those that are not where the scope is that they stand for.

* `ScopeStore.Padded` says that a padding fits two stores. A name is then found in the same scope
  from wherever it is looked up (`Padded.definer?`), and what is done to both stores alike leaves
  them padded (`Padded.add`, `Padded.define`).
* Adding an empty scope to the second store alone takes a new padding (`Padded.interpose`). All
  scopes that are made from then on are found one place further on.
-/

namespace StatementEngine

/-- How the scopes of two stores correspond. The second one had `extra` more scopes when the first
one had `size`; since then the same scopes have been added to both. -/
structure Padding where
  size : Nat
  extra : Nat
  /-- Where a scope of the first store is found in the second. -/
  place : ScopeId → ScopeId
  /-- The scope of the first store that a scope of the second stands for. -/
  behind : ScopeId → ScopeId
  behind_place : ∀ i, behind (place i) = i
  place_lt : ∀ {i}, i.index < size → (place i).index < size + extra
  behind_lt : ∀ {j}, j.index < size + extra → (behind j).index < size
  place_of_le : ∀ {i}, size ≤ i.index → place i = ⟨i.index + extra⟩
  behind_of_le : ∀ {j}, size + extra ≤ j.index → behind j = ⟨j.index - extra⟩

namespace Padding

variable (m : Padding) {n : Nat} {i j : ScopeId}

/-- Nothing is put in between. -/
def none (n : Nat) : Padding where
  size := n
  extra := 0
  place i := i
  behind j := j
  behind_place _ := rfl
  place_lt h := h
  behind_lt h := h
  place_of_le _ := rfl
  behind_of_le _ := rfl

theorem place_injective (h : m.place i = m.place j) : i = j := by
  rw [← m.behind_place i, h, m.behind_place]

variable (grown : m.size ≤ n)
include grown

theorem place_lt_iff : (m.place i).index < n + m.extra ↔ i.index < n := by
  rcases Nat.lt_or_ge i.index m.size with old | new
  · have placed := m.place_lt old
    exact ⟨fun _ => by omega, fun _ => by omega⟩
  · rw [m.place_of_le new]
    exact ⟨fun h => by dsimp only at h; omega, fun h => by dsimp only; omega⟩

theorem behind_lt_iff : (m.behind j).index < n ↔ j.index < n + m.extra := by
  rcases Nat.lt_or_ge j.index (m.size + m.extra) with old | new
  · have stands := m.behind_lt old
    exact ⟨fun _ => by omega, fun _ => by omega⟩
  · rw [m.behind_of_le new]
    exact ⟨fun h => by dsimp only at h; omega, fun h => by dsimp only; omega⟩

/-- One more scope is put in between, below another one, when the first store has `n` scopes. -/
def interpose (outer : ScopeId) (there : outer.index < n + m.extra) : Padding where
  size := n
  extra := m.extra + 1
  place i := if i.index < n then m.place i else ⟨i.index + (m.extra + 1)⟩
  behind j :=
    if j.index < n + m.extra then m.behind j
    else if j.index = n + m.extra then m.behind outer
    else ⟨j.index - (m.extra + 1)⟩
  behind_place i := by
    by_cases old : i.index < n
    · rw [if_pos old, if_pos ((m.place_lt_iff grown).mpr old), m.behind_place]
    · rw [if_neg old, if_neg (by dsimp only; omega), if_neg (by dsimp only; omega)]
      exact congrArg ScopeId.mk (Nat.add_sub_cancel _ _)
  place_lt old := by
    have placed := (m.place_lt_iff grown).mpr old
    rw [if_pos old]
    omega
  behind_lt {j} old := by
    split
    · next before => exact (m.behind_lt_iff grown).mpr before
    · rw [if_pos (by omega)]
      exact (m.behind_lt_iff grown).mpr there
  place_of_le new := if_neg (Nat.not_lt_of_le new)
  behind_of_le new := by rw [if_neg (by omega), if_neg (by omega)]

variable {outer : ScopeId} (there : outer.index < n + m.extra)

theorem interpose_place (old : i.index < n) :
    (m.interpose grown outer there).place i = m.place i := if_pos old

theorem interpose_behind (old : j.index < n + m.extra) :
    (m.interpose grown outer there).behind j = m.behind j := if_pos old

/-- The new scope stands for the scope that the one above it stands for. -/
theorem interpose_behind_new :
    (m.interpose grown outer there).behind ⟨n + m.extra⟩ = m.behind outer := by
  simp [interpose]

end Padding

/-- The scope with its parent under another name. -/
def Scope.renamed (f : ScopeId → ScopeId) (a : Scope) : Scope := { a with parent := a.parent.map f }

namespace ScopeStore

/-- The second store is the first one with empty scopes put in between. -/
structure Padded (m : Padding) (store store' : ScopeStore) : Prop where
  size : store'.scopes.size = store.scopes.size + m.extra
  grown : m.size ≤ store.scopes.size
  /-- What is found at the place of a scope is this scope. -/
  same : ∀ i, (store'.scope? (m.place i)).map (·.renamed m.behind) = store.scope? i
  /-- What is found anywhere else has no names, and the scope above stands for the same scope. -/
  between : ∀ j, j.index < store'.scopes.size → m.place (m.behind j) ≠ j →
    ∃ p, store'.scope? j = some ⟨some p, []⟩ ∧ m.behind p = m.behind j

namespace Padded

variable {m : Padding} {store store' : ScopeStore} {i j : ScopeId}

theorem none {n : Nat} (grown : n ≤ store.scopes.size) : store.Padded (.none n) store where
  size := rfl
  grown := grown
  same i := by
    have same : Scope.renamed (Padding.none n).behind = id := by
      funext a
      show { a with parent := a.parent.map id } = a
      rw [Option.map_id]
      rfl
    rw [same, Option.map_id]
    rfl
  between j _ apart := absurd rfl apart

variable (padded : store.Padded m store')
include padded

theorem next : store'.next = m.place store.next := by
  rw [m.place_of_le (i := store.next) padded.grown]
  exact congrArg ScopeId.mk padded.size

theorem behind_lt_iff : (m.behind j).index < store.scopes.size ↔ j.index < store'.scopes.size := by
  rw [padded.size]
  exact m.behind_lt_iff padded.grown

theorem place_lt_iff : (m.place i).index < store'.scopes.size ↔ i.index < store.scopes.size := by
  rw [padded.size]
  exact m.place_lt_iff padded.grown

/-! ## What is found -/

theorem parent? (i : ScopeId) :
    (store'.parent? (m.place i)).map m.behind = store.parent? i := by
  rw [parent?_eq, parent?_eq, ← padded.same i]
  cases store'.scope? (m.place i) <;> rfl

theorem local? (i : ScopeId) (name : Name) :
    store'.local? (m.place i) name = store.local? i name := by
  rw [local?_eq, local?_eq, ← padded.same i]
  cases store'.scope? (m.place i) <;> rfl

/-- The search for a name comes to the same scope from the scopes that stand for each other. -/
theorem definer? {j : ScopeId} (there : j.index < store'.scopes.size) (name : Name) :
    store'.definer? j name = (store.definer? (m.behind j) name).map m.place := by
  by_cases found : m.place (m.behind j) = j
  · -- the scope itself: it binds the name in both stores, or the search goes on from its parent
    have here : store'.local? j name = store.local? (m.behind j) name := by
      rw [← padded.local?, found]
    have above : (store'.parent? j).map m.behind = store.parent? (m.behind j) := by
      rw [← padded.parent?, found]
    rw [definer?_eq, definer?_eq store, here, ← above]
    split
    · rw [Option.map_some, found]
    · cases parent : store'.parent? j with
      | none => rfl
      | some p =>
          have lower := lt_of_parent? parent
          exact definer? (Nat.lt_trans lower there) name
  · -- a scope in between: it binds no name, and the search goes on from the scope above it
    obtain ⟨p, empty, stands⟩ := padded.between j there found
    have lower : p.index < j.index := lt_of_parent? (by rw [parent?_eq, empty]; rfl)
    have above := definer? (Nat.lt_trans lower there) name
    rw [definer?_eq, local?_eq, parent?_eq, empty]
    show store'.definer? p name = _
    rw [above, stands]
termination_by j.index

/-! ## Steps -/

theorem add {outer : ScopeId} (there : outer.index < store'.scopes.size) :
    (store.add (some (m.behind outer))).Padded m (store'.add (some outer)) where
  size := by
    have size := padded.size
    rw [size_add, size_add]
    omega
  grown := by
    rw [size_add]
    exact Nat.le_succ_of_le padded.grown
  same k := by
    have below := padded.behind_lt_iff.mpr there
    rw [scope?_add, scope?_add, padded.next]
    by_cases new : k = store.next
    · subst new
      simp [Scope.renamed, Option.filter_some, there, below]
    · rw [if_neg new, if_neg fun h => new (m.place_injective h), padded.same]
  between j lt apart := by
    have old : j ≠ store'.next := by
      rintro rfl
      rw [padded.next, m.behind_place] at apart
      exact apart rfl
    rw [size_add] at lt
    have still : j.index < store'.scopes.size := by
      refine Nat.lt_of_le_of_ne (Nat.le_of_lt_succ lt) fun h => old ?_
      exact congrArg ScopeId.mk h
    rw [scope?_add, if_neg old]
    exact padded.between j still apart

theorem define (i : ScopeId) (name : Name) (v : Value) :
    (store.define i name v).Padded m (store'.define (m.place i) name v) where
  size := by rw [size_define, size_define, padded.size]
  grown := by
    rw [size_define]
    exact padded.grown
  same k := by
    rw [scope?_define, scope?_define, ← padded.same k]
    by_cases here : i = k
    · subst here
      rw [if_pos rfl, if_pos rfl, Option.map_map, Option.map_map]
      rfl
    · rw [if_neg here, if_neg fun h => here (m.place_injective h)]
  between j lt apart := by
    have other : m.place i ≠ j := by
      rintro rfl
      rw [m.behind_place] at apart
      exact apart rfl
    rw [size_define] at lt
    rw [scope?_define, if_neg other]
    exact padded.between j lt apart

/-- A parent stands for the same scope when one more scope has been put in between. -/
theorem interpose_renamed {outer : ScopeId} (there : outer.index < store.scopes.size + m.extra)
    {a : Scope} (known : store'.scope? j = some a) :
    a.renamed (m.interpose padded.grown outer there).behind = a.renamed m.behind := by
  obtain ⟨parent, bindings⟩ := a
  cases parent with
  | none => rfl
  | some p =>
      have lower : p.index < j.index := lt_of_parent? (by rw [parent?_eq, known]; rfl)
      have lt := lt_of_scope? known
      have size := padded.size
      simp only [Scope.renamed, Option.map_some]
      rw [m.interpose_behind padded.grown there (by omega)]

/-- An empty scope is put in between. -/
theorem interpose {outer : ScopeId} (there : outer.index < store.scopes.size + m.extra) :
    store.Padded (m.interpose padded.grown outer there) (store'.add (some outer)) where
  size := by
    rw [size_add, padded.size]
    rfl
  grown := Nat.le_refl _
  same i := by
    rcases Nat.lt_or_ge i.index store.scopes.size with old | new
    · have placed := padded.place_lt_iff.mpr old
      have other : m.place i ≠ store'.next := fun h => Nat.lt_irrefl _ (h ▸ placed)
      rw [m.interpose_place padded.grown there old, scope?_add, if_neg other, ← padded.same i]
      cases known : store'.scope? (m.place i) with
      | none => rfl
      | some a => exact congrArg some (padded.interpose_renamed there known)
    · have size := padded.size
      rw [scope?_of_le new, scope?_of_le]
      · rfl
      · rw [(m.interpose padded.grown outer there).place_of_le new, size_add]
        show _ ≤ i.index + (m.extra + 1)
        omega
  between j lt apart := by
    have size := padded.size
    rw [size_add] at lt
    rcases Nat.lt_or_ge j.index (store.scopes.size + m.extra) with old | new
    · have stands := (m.behind_lt_iff padded.grown).mpr old
      rw [m.interpose_behind padded.grown there old] at apart ⊢
      rw [m.interpose_place padded.grown there stands] at apart
      obtain ⟨p, empty, same⟩ := padded.between j (by omega) apart
      have lower : p.index < j.index := lt_of_parent? (by rw [parent?_eq, empty]; rfl)
      have other : j ≠ store'.next := fun h => by
        rw [h] at old
        simp only [ScopeStore.next] at old
        omega
      refine ⟨p, by rw [scope?_add, if_neg other, empty], ?_⟩
      rw [m.interpose_behind padded.grown there (by omega), same]
    · -- the new scope
      obtain rfl : j = ⟨store.scopes.size + m.extra⟩ := congrArg ScopeId.mk (by omega)
      have here : (⟨store.scopes.size + m.extra⟩ : ScopeId) = store'.next :=
        congrArg ScopeId.mk size.symm
      refine ⟨outer, ?_, ?_⟩
      · rw [scope?_add, if_pos here, Option.filter_some, if_pos]
        exact decide_eq_true (by omega)
      · rw [m.interpose_behind padded.grown there there, m.interpose_behind_new]

end Padded

end ScopeStore

end StatementEngine
