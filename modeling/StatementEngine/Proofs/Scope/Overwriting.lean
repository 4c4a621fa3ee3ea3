import StatementEngine.Proofs.Scope.Lookup

/-!
# Overwriting several names

**Overwriting leaves every name where it is.** Which slot a name is found in does not change when a
slot is written (`place?_write`), so a name that is overwritten twice has the value of the second
time (`set?_set?`), and names in different slots may be overwritten in any order (`set?_comm`). All
the more may a list of different names (`setAll?_perm`), and each of them has its value afterwards
(`get?_setAll?`), as when they are bound anew (`local?_defineAll`).
-/

namespace StatementEngine

/-! ## Slots -/

namespace Bindings

theorem ext {b c : Bindings} (index : b.index = c.index) (entries : b.entries = c.entries) :
    b = c := by
  cases b
  cases c
  cases index
  cases entries
  rfl

theorem write_write (b : Bindings) (i : Nat) (v w : Value) :
    (b.write i v).write i w = b.write i w := by
  refine ext rfl (Array.ext_getElem? fun k => ?_)
  simp only [write, Array.getElem?_modify]
  split
  · simp [Function.comp_def]
  · rfl

theorem write_comm (b : Bindings) {i j : Nat} (apart : i ≠ j) (v w : Value) :
    (b.write i v).write j w = (b.write j w).write i v := by
  refine ext rfl (Array.ext_getElem? fun k => ?_)
  simp only [write, Array.getElem?_modify]
  grind

end Bindings

namespace ScopeStore

variable {store t : ScopeStore} {s d e x : ScopeId} {n m : Name} {v w : Value} {i j : Nat}

theorem ext {a b : ScopeStore} (scopes : a.scopes = b.scopes) : a = b := by
  cases a
  cases b
  cases scopes
  rfl

theorem cell?_write (store : ScopeStore) (d : ScopeId) (i : Nat) (v : Value) (x : ScopeId) :
    (store.write d i v).cell? x
      = if d = x then (store.cell? x).map fun c => { c with bindings := c.bindings.write i v }
        else store.cell? x := by
  have same : d = x ↔ d.index = x.index := by
    cases d
    cases x
    simp
  simp only [cell?, write, change, Array.getElem?_modify, same]

theorem slot?_write (store : ScopeStore) (d : ScopeId) (i : Nat) (v : Value) (x : ScopeId)
    (n : Name) : (store.write d i v).slot? x n = store.slot? x n := by
  rw [slot?, cell?_write]
  split
  · rw [Option.bind_map]
    rfl
  · rfl

theorem parent?_write (store : ScopeStore) (d : ScopeId) (i : Nat) (v : Value) (x : ScopeId) :
    (store.write d i v).parent? x = store.parent? x := by
  rw [parent?, cell?_write]
  split
  · rw [Option.bind_map]
    rfl
  · rfl

theorem walkWithin_write {α : Type} (store : ScopeStore) (d : ScopeId) (i : Nat) (v : Value)
    (visit : ScopeId → Option α) (steps : Nat) (s : ScopeId) :
    (store.write d i v).walkWithin visit steps s = store.walkWithin visit steps s := by
  induction steps generalizing s with
  | zero => rfl
  | succ steps ih => simp only [walkWithin, parent?_write, ih]

/-- A name is found in the same slot after a slot has been written. -/
theorem place?_write (store : ScopeStore) (d : ScopeId) (i : Nat) (v : Value) (s : ScopeId)
    (n : Name) : (store.write d i v).place? s n = store.place? s n := by
  simp only [place?, walk?, slot?_write, walkWithin_write]

theorem write_write (store : ScopeStore) (d : ScopeId) (i : Nat) (v w : Value) :
    (store.write d i v).write d i w = store.write d i w := by
  refine ext (Array.ext_getElem? fun k => ?_)
  simp only [write, change, Array.getElem?_modify]
  split
  · simp [Function.comp_def, Bindings.write_write]
  · rfl

/-- Different slots may be written in any order. -/
theorem write_comm (store : ScopeStore) (apart : ¬ (d = e ∧ i = j)) (v w : Value) :
    (store.write d i v).write e j w = (store.write e j w).write d i v := by
  refine ext (Array.ext_getElem? fun k => ?_)
  simp only [write, change, Array.getElem?_modify]
  by_cases first : d.index = k
  · by_cases second : e.index = k
    · have same : d = e := by
        cases d
        cases e
        simp_all
      have comm := fun b : Bindings => b.write_comm (fun h => apart ⟨same, h⟩) v w
      simp [first, second, Function.comp_def, comm]
    · simp [first, second]
  · simp [first]

/-! ## Names -/

/-- The slot that a name is found in is the slot of that name. -/
theorem slot?_of_place? (found : store.place? s n = some (d, i)) : store.slot? d n = some i := by
  rw [place?, walk?_eq fun s => by rw [Option.isSome_map, local?_isSome]] at found
  obtain ⟨d', -, found⟩ := Option.bind_eq_some_iff.mp found
  obtain ⟨slot, known, same⟩ := Option.map_eq_some_iff.mp found
  cases same
  exact known

/-- Different names are found in different slots. -/
theorem apart_of_place? (apart : n ≠ m) (hn : store.place? s n = some (d, i))
    (hm : store.place? s m = some (e, j)) : ¬ (d = e ∧ i = j) := by
  rintro ⟨rfl, rfl⟩
  obtain ⟨c, there, known⟩ := Option.bind_eq_some_iff.mp (slot?_of_place? hn)
  obtain ⟨c', there', known'⟩ := Option.bind_eq_some_iff.mp (slot?_of_place? hm)
  obtain rfl := Option.some.inj (there.symm.trans there')
  obtain ⟨v, entry⟩ := (c.bindings.slot?_eq_some_iff n i).mp known
  obtain ⟨w, entry'⟩ := (c.bindings.slot?_eq_some_iff m i).mp known'
  exact apart (congrArg Prod.fst (Option.some.inj (entry.symm.trans entry')))

theorem place?_isSome (store : ScopeStore) (s : ScopeId) (n : Name) :
    (store.place? s n).isSome = store.contains s n := by
  have found := congrArg Option.isSome (set?_eq store s n .nil)
  rwa [set?, Option.isSome_map, Option.isSome_map, ← contains_eq] at found

/-- Overwriting a name and then a name is writing two slots. -/
theorem set?_bind_set? (store : ScopeStore) (s : ScopeId) (n m : Name) (v w : Value) :
    (store.set? s n v).bind (·.set? s m w) = (store.place? s n).bind fun p =>
      (store.place? s m).map fun q => (store.write p.1 p.2 v).write q.1 q.2 w := by
  simp only [set?, Option.bind_map, Function.comp_def, place?_write]

theorem set?_set? (done : store.set? s n v = some t) (w : Value) :
    t.set? s n w = store.set? s n w := by
  have twice := set?_bind_set? store s n n v w
  rw [done, Option.bind_some] at twice
  rw [twice, set?]
  cases store.place? s n with
  | none => rfl
  | some p => exact congrArg some (write_write store p.1 p.2 v w)

/-- Different names may be overwritten in any order. -/
theorem set?_comm (apart : n ≠ m) (store : ScopeStore) (s : ScopeId) (v w : Value) :
    (store.set? s n v).bind (·.set? s m w) = (store.set? s m w).bind (·.set? s n v) := by
  rw [set?_bind_set?, set?_bind_set?]
  cases hn : store.place? s n with
  | none => cases store.place? s m <;> rfl
  | some p =>
      cases hm : store.place? s m with
      | none => rfl
      | some q => exact congrArg some (write_comm store (apart_of_place? apart hn hm) v w)

theorem contains_set? (done : store.set? s n v = some t) (x : ScopeId) (m : Name) :
    t.contains x m = store.contains x m := by
  obtain ⟨p, -, rfl⟩ := Option.map_eq_some_iff.mp done
  rw [← place?_isSome, ← place?_isSome, place?_write]

/-- Overwrites names one after the other. -/
def setAll? (store : ScopeStore) (s : ScopeId) : List (Name × Value) → Option ScopeStore
  | [] => some store
  | (n, v) :: rest => (store.set? s n v).bind (·.setAll? s rest)

/-- Names that can be seen can all be overwritten. -/
theorem setAll?_isSome {writes : List (Name × Value)}
    (seen : ∀ e ∈ writes, store.contains s e.1 = true) : (store.setAll? s writes).isSome := by
  induction writes generalizing store with
  | nil => rfl
  | cons e rest ih =>
      have here : (store.set? s e.1 e.2).isSome := by
        rw [set?, Option.isSome_map, place?_isSome]
        exact seen e List.mem_cons_self
      obtain ⟨t, done⟩ := Option.isSome_iff_exists.mp here
      rw [setAll?, done]
      exact ih fun e' later =>
        (contains_set? done s e'.1).trans (seen e' (List.mem_cons_of_mem _ later))

/-- Different names may be overwritten in any order, however many there are. -/
theorem setAll?_perm {writes writes' : List (Name × Value)} (perm : writes.Perm writes')
    (distinct : (writes.map (·.1)).Nodup) (store : ScopeStore) :
    store.setAll? s writes = store.setAll? s writes' := by
  induction perm generalizing store with
  | nil => rfl
  | cons e _ ih =>
      simp only [setAll?, ih (List.nodup_cons.mp distinct).2]
  | swap e e' rest =>
      have apart : e'.1 ≠ e.1 := by
        intro same
        simp [same] at distinct
      have comm := congrArg (Option.bind · (setAll? · s rest)) (set?_comm apart store s e'.2 e.2)
      simpa only [setAll?, Option.bind_assoc] using comm
  | trans first _ ih ih' =>
      exact (ih distinct store).trans (ih' ((first.map _).nodup_iff.mp distinct) store)

/-- Names that have all been overwritten, each once, have the values that they have been given. -/
theorem get?_setAll? {writes : List (Name × Value)} (distinct : (writes.map (·.1)).Nodup)
    (done : store.setAll? s writes = some t) :
    (∀ e ∈ writes, t.get? s e.1 = some e.2) ∧
      ∀ m, m ∉ writes.map (·.1) → t.get? s m = store.get? s m := by
  induction writes generalizing store with
  | nil =>
      cases done
      exact ⟨by simp, fun _ _ => rfl⟩
  | cons e rest ih =>
      obtain ⟨new, distinct⟩ := List.nodup_cons.mp distinct
      obtain ⟨first, here, done⟩ := Option.bind_eq_some_iff.mp done
      obtain ⟨each, others⟩ := ih distinct done
      refine ⟨fun e' he => ?_, fun m hm => ?_⟩
      · rcases List.mem_cons.mp he with rfl | later
        · rw [others _ new, get?_set?_of_same here rfl]
        · exact each e' later
      · rw [List.map_cons, List.mem_cons, not_or] at hm
        rw [others m hm.2, get?_set?_of_other here fun same => hm.1 same.1]

/-- Names that have all been bound in a scope, each once, have the values that they have been given
there. -/
theorem local?_defineAll {bindings : List (Name × Value)}
    (there : d.index < store.scopes.size) (distinct : (bindings.map (·.1)).Nodup) :
    (∀ e ∈ bindings, (store.defineAll d bindings).local? d e.1 = some e.2) ∧
      ∀ m, m ∉ bindings.map (·.1) → (store.defineAll d bindings).local? d m = store.local? d m := by
  induction bindings generalizing store with
  | nil => exact ⟨by simp, fun _ _ => rfl⟩
  | cons e rest ih =>
      obtain ⟨new, distinct⟩ := List.nodup_cons.mp distinct
      obtain ⟨each, others⟩ := @ih (store.define d e.1 e.2) (by rwa [size_define]) distinct
      refine ⟨fun e' he => ?_, fun m hm => ?_⟩
      · rcases List.mem_cons.mp he with rfl | later
        · exact (others _ new).trans (by rw [local?_define there, if_pos ⟨rfl, rfl⟩])
        · exact each e' later
      · rw [List.map_cons, List.mem_cons, not_or] at hm
        exact (others m hm.2).trans (by rw [local?_define there, if_neg fun same => hm.1 same.2])

end ScopeStore

end StatementEngine
