import StatementEngine.Name
import StatementEngine.Value.Basic

/-!
# The bindings of a scope

**The bindings of a scope are kept twice over.** The entries stand in the order in which their names
were first bound; an index says for each name which slot its entry has, so that nobody has to look
through the entries. That the index and the entries fit together is an invariant of the type
(`Bindings.linked`), and so a slot that the index knows is never missing.

Read as a list, bindings are a map that remembers the order of insertion (`bindName`,
`boundValue?`), and every operation on them is the operation on that list.
-/

namespace StatementEngine

/-! ## Lists of bindings -/

variable {β : Type}

/-- Sets a name in a list of bindings, in its place or at the end. -/
def bindName (name : Name) (value : β) : List (Name × β) → List (Name × β)
  | [] => [(name, value)]
  | (n, v) :: rest => if n = name then (n, value) :: rest else (n, v) :: bindName name value rest

/-- What a name is bound to in a list of bindings. -/
def boundValue? (name : Name) : List (Name × β) → Option β
  | [] => none
  | (n, v) :: rest => if n = name then some v else boundValue? name rest

theorem boundValue?_bindName (name n : Name) (value : β) (bindings : List (Name × β)) :
    boundValue? n (bindName name value bindings)
      = if n = name then some value else boundValue? n bindings := by
  induction bindings with
  | nil => simp [bindName, boundValue?, eq_comm]
  | cons b rest ih => grind [bindName, boundValue?]

/-- A name that is bound already keeps its place; a new one comes last. -/
theorem bindName_map_fst (name : Name) (value : β) (bindings : List (Name × β)) :
    (bindName name value bindings).map (·.1)
      = if name ∈ bindings.map (·.1) then bindings.map (·.1) else bindings.map (·.1) ++ [name] := by
  induction bindings with
  | nil => simp [bindName]
  | cons b rest ih => grind [bindName]

theorem bindName_of_notMem {name : Name} {value : β} {bindings : List (Name × β)}
    (new : name ∉ bindings.map (·.1)) :
    bindName name value bindings = bindings ++ [(name, value)] := by
  induction bindings with
  | nil => rfl
  | cons b rest ih => grind [bindName]

/-- Binding a name changes the only slot that holds it. -/
theorem bindName_eq_modify {name : Name} {value : β} {bindings : List (Name × β)} {slot : Nat}
    (only : ∀ i, (bindings[i]?).map (·.1) = some name ↔ slot = i) :
    bindName name value bindings = bindings.modify slot fun e => (e.1, value) := by
  induction bindings generalizing slot with
  | nil => exact absurd ((only slot).mpr rfl) (by simp)
  | cons b rest ih =>
      obtain ⟨n, v⟩ := b
      rw [bindName]
      by_cases first : n = name
      · obtain rfl : slot = 0 := (only 0).mp (by simp [first])
        simp [first]
      · -- the slot is further on, as the first entry has another name
        cases slot with
        | zero => exact absurd ((only 0).mpr rfl) (by simp [first])
        | succ slot =>
            have only' : ∀ i, (rest[i]?).map (·.1) = some name ↔ slot = i := by
              intro i
              simpa using only (i + 1)
            rw [if_neg first, ih only', List.modify_succ_cons]

theorem boundValue?_isSome {name : Name} {bindings : List (Name × β)} :
    (boundValue? name bindings).isSome ↔ name ∈ bindings.map (·.1) := by
  induction bindings with
  | nil => simp [boundValue?]
  | cons b rest ih => grind [boundValue?]

/-- The value of a name stands in the only slot that holds it. -/
theorem boundValue?_eq_getElem? {name : Name} {bindings : List (Name × β)} {slot : Nat}
    (only : ∀ i, (bindings[i]?).map (·.1) = some name ↔ slot = i) :
    boundValue? name bindings = (bindings[slot]?).map (·.2) := by
  induction bindings generalizing slot with
  | nil => exact absurd ((only slot).mpr rfl) (by simp)
  | cons b rest ih =>
      obtain ⟨n, v⟩ := b
      rw [boundValue?]
      by_cases first : n = name
      · obtain rfl : slot = 0 := (only 0).mp (by simp [first])
        simp [first]
      · cases slot with
        | zero => exact absurd ((only 0).mpr rfl) (by simp [first])
        | succ slot =>
            have only' : ∀ i, (rest[i]?).map (·.1) = some name ↔ slot = i := by
              intro i
              simpa using only (i + 1)
            rw [if_neg first, ih only', List.getElem?_cons_succ]

/-! ## Bindings with an index -/

/-- The bindings of a scope: their entries, oldest first, and the slot of each name. -/
structure Bindings where
  index : List (Name × Nat)
  entries : Array (Name × Value)
  /-- The index leads a name to a slot exactly if the entry of that name is there. -/
  linked : ∀ name slot,
    boundValue? name index = some slot ↔ (entries[slot]?).map (·.1) = some name

namespace Bindings

/-- No bindings. -/
def empty : Bindings := ⟨[], #[], by simp [boundValue?]⟩

instance : Inhabited Bindings := ⟨empty⟩

/-- The slot of a name. -/
def slot? (b : Bindings) (name : Name) : Option Nat := boundValue? name b.index

/-- The value of a name, through the index. -/
def get? (b : Bindings) (name : Name) : Option Value :=
  (b.slot? name).bind fun slot => (b.entries[slot]?).map (·.2)

/-- Writes a value into a slot. -/
def write (b : Bindings) (slot : Nat) (value : Value) : Bindings where
  index := b.index
  entries := b.entries.modify slot fun e => (e.1, value)
  linked name i := by
    rw [b.linked, Array.getElem?_modify]
    split <;> simp [Function.comp_def]

/-- Adds an entry for a new name in a slot of its own. -/
def push (b : Bindings) (name : Name) (value : Value) (new : b.slot? name = none) : Bindings where
  index := (name, b.entries.size) :: b.index
  entries := b.entries.push (name, value)
  linked n i := by
    have unused : (b.entries[i]?).map (·.1) ≠ some name := fun h => by
      rw [← b.linked, ← slot?, new] at h
      cases h
    have known := b.linked n i
    rw [boundValue?, Array.getElem?_push]
    grind

/-- Binds a name: in its slot if it has one, in a new slot otherwise. -/
def define (b : Bindings) (name : Name) (value : Value) : Bindings :=
  match h : b.slot? name with
  | some slot => b.write slot value
  | none => b.push name value h

/-- The bound names, oldest first. -/
def names (b : Bindings) : List Name := b.entries.toList.map (·.1)

/-- The number of bindings. -/
def len (b : Bindings) : Nat := b.entries.size

/-- The bindings as a list, oldest first. -/
def toList (b : Bindings) : List (Name × Value) := b.entries.toList

/-! ## The operations on the list -/

variable {b : Bindings} {name : Name} {value : Value} {slot : Nat}

/-- The index leads to exactly the slots whose entries have the name. -/
theorem slot?_eq_some_iff (b : Bindings) (name : Name) (slot : Nat) :
    b.slot? name = some slot ↔ ∃ v, b.entries[slot]? = some (name, v) := by
  rw [slot?, b.linked, Option.map_eq_some_iff]
  grind

theorem only_of_slot? (known : b.slot? name = some slot) (i : Nat) :
    (b.toList[i]?).map (·.1) = some name ↔ slot = i := by
  rw [toList, Array.getElem?_toList, ← b.linked, ← slot?, known, Option.some_inj]

/-- The access to the slot never fails. -/
theorem get?_isSome (b : Bindings) (name : Name) : (b.get? name).isSome = (b.slot? name).isSome := by
  cases known : b.slot? name with
  | none => simp [get?, known]
  | some slot =>
      obtain ⟨v, there⟩ := (b.slot?_eq_some_iff name slot).mp known
      simp [get?, known, there]

theorem define_of_slot? (known : b.slot? name = some slot) :
    b.define name value = b.write slot value := by
  unfold define
  split
  · next slot' known' =>
    obtain rfl := Option.some.inj (known.symm.trans known')
    rfl
  · next unknown => cases known.symm.trans unknown

theorem slot?_isSome : (b.slot? name).isSome ↔ name ∈ b.names := by
  constructor
  · intro known
    obtain ⟨slot, known⟩ := Option.isSome_iff_exists.mp known
    obtain ⟨v, there⟩ := (b.slot?_eq_some_iff name slot).mp known
    exact List.mem_map.mpr ⟨_, Array.mem_toList_iff.mpr (Array.mem_of_getElem? there), rfl⟩
  · intro bound
    obtain ⟨⟨n, v⟩, member, rfl⟩ := List.mem_map.mp bound
    obtain ⟨i, there⟩ := List.mem_iff_getElem?.mp member
    rw [slot?, (b.linked n i).mpr (by simpa using congrArg (Option.map (·.1)) there)]
    rfl

/-- Every name has one entry. -/
theorem nodup_names (b : Bindings) : b.names.Nodup := by
  refine List.pairwise_iff_getElem.mpr fun i j hi hj less same => ?_
  -- the index has one slot for the name that both entries have
  have slot : ∀ i (h : i < b.names.length), b.slot? b.names[i] = some i := by
    intro i h
    have inside : i < b.entries.size := by simpa [names] using h
    exact (b.slot?_eq_some_iff _ _).mpr ⟨b.entries[i].2, by simp [names, inside]⟩
  have := Option.some.inj ((slot i hi).symm.trans (same ▸ slot j hj))
  omega

/-- Reading a name through the index is reading it in the list. -/
theorem get?_eq (b : Bindings) (name : Name) : b.get? name = boundValue? name b.toList := by
  cases known : b.slot? name with
  | none =>
      have unbound : name ∉ b.toList.map (·.1) := fun bound => by
        simpa [known] using slot?_isSome.mpr bound
      rw [get?, known, Option.bind_none, Option.not_isSome_iff_eq_none.mp
        (unbound ∘ boundValue?_isSome.mp)]
  | some slot =>
      rw [get?, known, boundValue?_eq_getElem? (only_of_slot? known), toList,
        Array.getElem?_toList]
      rfl

theorem toList_write (known : b.slot? name = some slot) :
    (b.write slot value).toList = bindName name value b.toList := by
  rw [bindName_eq_modify (only_of_slot? known), toList, write, toList, Array.toList_modify]

/-- Binding a name through the index is binding it in the list. -/
theorem toList_define (b : Bindings) (name : Name) (value : Value) :
    (b.define name value).toList = bindName name value b.toList := by
  unfold define
  split
  · next slot known => exact toList_write known
  · next known =>
    have unbound : name ∉ b.toList.map (·.1) := fun bound => by
      simpa [known] using slot?_isSome.mpr bound
    rw [bindName_of_notMem unbound, toList, push, toList, Array.toList_push]

end Bindings

end StatementEngine
