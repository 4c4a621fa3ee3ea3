import StatementEngine.Scope.Store

/-!
# Stores grow

**A scope only ever gets more names.** Whatever happens to a store while a script runs, the scopes
that are there keep their parents and their names, and new names come after the old ones
(`Scope.GrownBy`). `ScopeStore.Grows` says so of all scopes of a store, and which names each of them
may get at all. A scope that is not in the first store may change in any way.

Adding a scope and setting a variable where it is bound add no names to the scopes that are there.
Binding a name does so at most for the scope that it is bound in (`Grows.define`).
-/

namespace StatementEngine

/-- The scope has kept its parent and its names. Only some names may have come after them, and none
that was there before. -/
structure Scope.GrownBy (may : Name → Prop) (a b : Scope) : Prop where
  parent : b.parent = a.parent
  names : ∃ new, b.names = a.names ++ new ∧ new.Nodup ∧ ∀ n ∈ new, n ∉ a.names ∧ may n

namespace Scope

variable {may may' : Name → Prop} {a b c : Scope} {n : Name}

theorem GrownBy.refl (a : Scope) : a.GrownBy may a :=
  ⟨rfl, [], by simp, List.nodup_nil, by simp⟩

theorem GrownBy.mono (h : a.GrownBy may b) (le : ∀ n, may n → may' n) : a.GrownBy may' b := by
  obtain ⟨parent, new, hnew, nodup, hmay⟩ := h
  exact ⟨parent, new, hnew, nodup, fun n hn => ⟨(hmay n hn).1, le n (hmay n hn).2⟩⟩

theorem GrownBy.trans (h : a.GrownBy may b) (h' : b.GrownBy may c) : a.GrownBy may c := by
  obtain ⟨parent, new, hnew, nodup, hmay⟩ := h
  obtain ⟨parent', new', hnew', nodup', hmay'⟩ := h'
  -- what has come second was there neither at first nor in between
  have apart : ∀ n ∈ new', n ∉ a.names ∧ n ∉ new := by
    intro n hn
    have := (hmay' n hn).1
    rw [hnew, List.mem_append] at this
    exact not_or.mp this
  refine ⟨parent'.trans parent, new ++ new', by rw [hnew', hnew, List.append_assoc], ?_, ?_⟩
  · exact List.nodup_append.mpr ⟨nodup, nodup', fun x hx y hy hxy => (apart y hy).2 (hxy ▸ hx)⟩
  · intro n hn
    rcases List.mem_append.mp hn with hn | hn
    · exact hmay n hn
    · exact ⟨(apart n hn).1, (hmay' n hn).2⟩

theorem names_bind (a : Scope) (n : Name) (v : Value) :
    (a.bind n v).names = if n ∈ a.names then a.names else a.names ++ [n] :=
  bindName_map_fst n v a.bindings

/-- A binding adds a name that is allowed, or none. -/
theorem grownBy_bind {v : Value} (h : n ∈ a.names ∨ may n) : a.GrownBy may (a.bind n v) := by
  refine ⟨rfl, ?_⟩
  rw [names_bind]
  by_cases hn : n ∈ a.names
  · exact ⟨[], by simp [hn], List.nodup_nil, by simp⟩
  · refine ⟨[n], by simp [hn], by simp, fun m hm => ?_⟩
    obtain rfl := List.mem_singleton.mp hm
    exact ⟨hn, h.resolve_left hn⟩

end Scope

namespace ScopeStore

variable {may may' : ScopeId → Name → Prop} {s t u : ScopeStore} {i d : ScopeId} {n : Name}

/-- What is in the first store is in the second one as well, grown by names that are allowed. -/
def Grows (may : ScopeId → Name → Prop) (s t : ScopeStore) : Prop :=
  ∀ i a, s.scope? i = some a → ∃ b, t.scope? i = some b ∧ a.GrownBy (may i) b

theorem Grows.refl (s : ScopeStore) : s.Grows may s := fun _ a h => ⟨a, h, .refl a⟩

/-- It only matters what is allowed for scopes that were there from the start. -/
theorem Grows.trans (h : s.Grows may t) (h' : t.Grows may' u)
    (le : ∀ i, s.scope? i ≠ none → ∀ n, may' i n → may i n) : s.Grows may u := by
  intro i a ha
  obtain ⟨b, hb, hab⟩ := h i a ha
  obtain ⟨c, hc, hbc⟩ := h' i b hb
  exact ⟨c, hc, hab.trans (hbc.mono (le i (by simp [ha])))⟩

theorem size_add (store : ScopeStore) (parent : Option ScopeId) :
    (store.add parent).scopes.size = store.scopes.size + 1 := Array.size_push _

theorem size_define (store : ScopeStore) (i : ScopeId) (name : Name) (v : Value) :
    (store.define i name v).scopes.size = store.scopes.size := Array.size_modify

theorem scope?_of_le {s : ScopeStore} {i : ScopeId} (new : s.scopes.size ≤ i.index) :
    s.scope? i = none := by
  rw [scope?, cell?, Array.getElem?_eq_none new]
  rfl

theorem scope?_of_lt {s : ScopeStore} {i : ScopeId} (there : i.index < s.scopes.size) :
    ∃ a, s.scope? i = some a :=
  ⟨_, by rw [scope?, cell?, Array.getElem?_eq_getElem there]; rfl⟩

theorem scope?_next (s : ScopeStore) : s.scope? s.next = none := scope?_of_le (Nat.le_refl _)

theorem lt_of_scope? {s : ScopeStore} {i : ScopeId} {a : Scope} (there : s.scope? i = some a) :
    i.index < s.scopes.size :=
  Nat.lt_of_not_le fun new => by simp [scope?_of_le new] at there

/-- A scope that was there is still there. -/
theorem Grows.lt (h : s.Grows may t) (there : i.index < s.scopes.size) :
    i.index < t.scopes.size := by
  obtain ⟨a, ha⟩ := scope?_of_lt there
  obtain ⟨b, hb, -⟩ := h i a ha
  exact lt_of_scope? hb

/-- A store does not lose scopes. -/
theorem Grows.size_le (h : s.Grows may t) : s.scopes.size ≤ t.scopes.size := by
  refine Nat.le_of_not_lt fun fewer => ?_
  have lost : t.scopes.size < t.scopes.size := h.lt (i := ⟨t.scopes.size⟩) fewer
  exact Nat.lt_irrefl _ lost

/-- A scope that was there has its old names, and new names that it may have. -/
theorem Grows.names (h : s.Grows may t) (there : i.index < s.scopes.size) :
    ∃ new, t.names i = s.names i ++ new ∧ ∀ n ∈ new, may i n := by
  obtain ⟨a, ha⟩ := scope?_of_lt there
  obtain ⟨b, hb, -, new, names, -, allowed⟩ := h i a ha
  refine ⟨new, ?_, fun n hn => (allowed n hn).2⟩
  rw [names_eq, names_eq, ha, hb]
  exact names

theorem Grows.mem_names (h : s.Grows may t) (there : i.index < s.scopes.size)
    (bound : n ∈ s.names i) : n ∈ t.names i := by
  obtain ⟨new, names, -⟩ := h.names there
  rw [names]
  exact List.mem_append_left new bound

/-- A scope that may not be given names keeps those that it has. -/
theorem Grows.names_same (h : s.Grows may t) (there : i.index < s.scopes.size)
    (none : ∀ n, ¬ may i n) : t.names i = s.names i := by
  obtain ⟨new, names, allowed⟩ := h.names there
  obtain rfl : new = [] := List.eq_nil_iff_forall_not_mem.mpr fun n hn => none n (allowed n hn)
  rw [names, List.append_nil]

/-- The next scope is none that has been there before. -/
theorem Grows.scope?_next (h : s.Grows may t) : s.scope? t.next = none := by
  cases hs : s.scope? t.next with
  | none => rfl
  | some a =>
      -- what is in the first store is in the second one, and this scope is not
      obtain ⟨b, hb, -⟩ := h _ a hs
      rw [t.scope?_next] at hb
      cases hb

theorem scope?_add (t : ScopeStore) (parent : Option ScopeId) : (t.add parent).scope? i =
    if i = t.next then some ⟨parent.filter (·.index < t.scopes.size), []⟩ else t.scope? i := by
  have same : i = t.next ↔ i.index = t.scopes.size := by
    cases i
    simp [next]
  simp only [scope?, cell?, add, Array.getElem?_push, same]
  split
  · rfl
  · rfl

theorem Grows.add (h : s.Grows may t) (parent : Option ScopeId) : s.Grows may (t.add parent) := by
  intro i a ha
  obtain ⟨b, hb, hab⟩ := h i a ha
  have hi : i ≠ t.next := by
    rintro rfl
    rw [t.scope?_next] at hb
    cases hb
  exact ⟨b, by rw [scope?_add, if_neg hi, hb], hab⟩

theorem scope?_define (t : ScopeStore) (v : Value) :
    (t.define d n v).scope? i = if d = i then (t.scope? i).map (·.bind n v) else t.scope? i := by
  have same : d = i ↔ d.index = i.index := by
    cases d
    cases i
    simp
  simp only [scope?, cell?, define, change, Array.getElem?_modify, same]
  split
  · simp only [Option.map_map, Function.comp_def, ScopeCell.scope, Bindings.toList_define,
      Scope.bind]
  · rfl

/-- A binding adds a name to a scope that was there from the start only if that is allowed. -/
theorem Grows.define {v : Value} (h : s.Grows may t)
    (hd : ∀ a, s.scope? d ≠ none → t.scope? d = some a → n ∈ a.names ∨ may d n) :
    s.Grows may (t.define d n v) := by
  intro i a ha
  obtain ⟨b, hb, hab⟩ := h i a ha
  rw [scope?_define]
  -- only the scope that the name is bound in changes
  by_cases hi : d = i
  · subst hi
    refine ⟨b.bind n v, by simp [hb], hab.trans (Scope.grownBy_bind ?_)⟩
    exact hd b (by simp [ha]) hb
  · exact ⟨b, by simp [hi, hb], hab⟩

theorem Grows.defineNew {v : Value} (h : s.Grows may t) (hd : s.scope? d = none) :
    s.Grows may (t.define d n v) :=
  h.define fun _ hs _ => absurd hd hs

/-- The scope that a name is found in binds it. -/
theorem mem_names_of_definer? {start : ScopeId} {a : Scope} (h : t.definer? start n = some d)
    (ha : t.scope? d = some a) : n ∈ a.names := by
  have bound := local?_of_definerWithin h
  rw [local?_eq, ha, Option.bind_some, Scope.local?] at bound
  exact boundValue?_isSome.mp bound

theorem Grows.overwrite {start : ScopeId} {v : Value} (h : s.Grows may t)
    (hd : t.definer? start n = some d) : s.Grows may (t.define d n v) :=
  h.define fun _ _ ha => Or.inl (mem_names_of_definer? hd ha)

theorem Grows.defineAll (h : s.Grows may t) (allowed : ∀ n, may d n)
    (bindings : List (Name × Value)) : s.Grows may (t.defineAll d bindings) := by
  induction bindings generalizing t with
  | nil => exact h
  | cons x rest ih => exact ih (h.define fun _ _ _ => Or.inr (allowed x.1))

end ScopeStore

end StatementEngine
