import StatementEngine.Scope.Bindings

/-!
# Scopes

**Scopes form a forest, kept in one store.** A scope has a parent, or none, and its own bindings in
the order in which they were first made. A name is looked up along the parents: the nearest scope
that binds it (`ScopeStore.definer?`) is the one that is read and the one that is written.

* A scope is named by its place in the store. A parent always stands before its children, which
  is an invariant of the type, so every walk along the parents ends.
* A scope is stored as a cell with indexed bindings. What can be seen of it is a `Scope`, whose
  bindings are a plain list; `parent?_eq`, `local?_eq` and `names_eq` say so.
* A new binding goes to the end; a binding that is there already keeps its place.
* Reading a name, overwriting it and asking for it each walk along the parents on their own
  (`ScopeStore.walk?`). They all stop at the same scope.
* Scopes are never removed: a function may have captured any of them.
-/

namespace StatementEngine

/-- The name of a scope: its place in the store. -/
structure ScopeId where
  index : Nat
  deriving DecidableEq, Inhabited

/-- What can be seen of a scope: where unknown names are looked up, and its own bindings, oldest
first. -/
structure Scope where
  parent : Option ScopeId
  bindings : List (Name × Value)
  deriving Inhabited

namespace Scope

/-- The value of a name bound in this very scope. -/
def local? (s : Scope) (name : Name) : Option Value := boundValue? name s.bindings

/-- Binds a name in this very scope. -/
def bind (s : Scope) (name : Name) (value : Value) : Scope :=
  { s with bindings := bindName name value s.bindings }

/-- The bound names, oldest first. -/
def names (s : Scope) : List Name := s.bindings.map (·.1)

@[simp] theorem bind_parent (s : Scope) (name : Name) (value : Value) :
    (s.bind name value).parent = s.parent := rfl

end Scope

/-- A scope as it is stored. -/
structure ScopeCell where
  parent : Option ScopeId
  bindings : Bindings
  deriving Inhabited

/-- What can be seen of a stored scope. -/
def ScopeCell.scope (c : ScopeCell) : Scope := ⟨c.parent, c.bindings.toList⟩

/-- All scopes. -/
structure ScopeStore where
  scopes : Array ScopeCell
  /-- A parent stands before its children. -/
  parent_lt : ∀ i p, scopes[i]?.bind ScopeCell.parent = some p → p.index < i

namespace ScopeStore

/-- A store without scopes. -/
def empty : ScopeStore := ⟨#[], by simp⟩

instance : Inhabited ScopeStore := ⟨empty⟩

/-- A scope of the store, as it is stored. -/
def cell? (store : ScopeStore) (s : ScopeId) : Option ScopeCell := store.scopes[s.index]?

/-- A scope of the store. -/
def scope? (store : ScopeStore) (s : ScopeId) : Option Scope := (store.cell? s).map ScopeCell.scope

/-- The parent of a scope. -/
def parent? (store : ScopeStore) (s : ScopeId) : Option ScopeId :=
  (store.cell? s).bind ScopeCell.parent

theorem lt_of_parent? {store : ScopeStore} {s p : ScopeId} (h : store.parent? s = some p) :
    p.index < s.index := store.parent_lt s.index p h

/-- The name that the next new scope gets. -/
def next (store : ScopeStore) : ScopeId := ⟨store.scopes.size⟩

/-- Adds a scope without bindings. A parent that is not in the store counts as none. -/
def add (store : ScopeStore) (parent : Option ScopeId) : ScopeStore where
  scopes := store.scopes.push ⟨parent.filter (·.index < store.scopes.size), .empty⟩
  parent_lt i p h := by
    rw [Array.getElem?_push] at h
    split at h
    · next hi => subst hi; simp [Option.filter_eq_some_iff] at h; exact h.2
    · exact store.parent_lt i p h

/-- Changes the bindings of a scope. -/
def change (store : ScopeStore) (s : ScopeId) (f : Bindings → Bindings) : ScopeStore where
  scopes := store.scopes.modify s.index fun c => { c with bindings := f c.bindings }
  parent_lt i p h := by
    refine store.parent_lt i p ?_
    rw [Array.getElem?_modify] at h
    split at h
    · simpa only [Option.bind_map, Function.comp_def] using h
    · exact h

/-- Binds a name in a scope. -/
def define (store : ScopeStore) (s : ScopeId) (name : Name) (value : Value) : ScopeStore :=
  store.change s (·.define name value)

/-- Binds several names in a scope, one after the other. -/
def defineAll (store : ScopeStore) (s : ScopeId) (bindings : List (Name × Value)) : ScopeStore :=
  bindings.foldl (fun st (name, value) => st.define s name value) store

/-- Writes a value into a slot of a scope. -/
def write (store : ScopeStore) (s : ScopeId) (slot : Nat) (value : Value) : ScopeStore :=
  store.change s (·.write slot value)

/-- The slot of a name bound in a scope itself. -/
def slot? (store : ScopeStore) (s : ScopeId) (name : Name) : Option Nat :=
  (store.cell? s).bind (·.bindings.slot? name)

/-- The value of a name bound in a scope itself. -/
def local? (store : ScopeStore) (s : ScopeId) (name : Name) : Option Value :=
  (store.cell? s).bind (·.bindings.get? name)

/-- The names bound in a scope itself, oldest first. -/
def names (store : ScopeStore) (s : ScopeId) : List Name :=
  ((store.cell? s).map (·.bindings.names)).getD []

/-- The number of names bound in a scope itself. -/
def len (store : ScopeStore) (s : ScopeId) : Nat :=
  ((store.cell? s).map (·.bindings.len)).getD 0

/-! ## Walks along the parents -/

/-- The first result on the way up from a scope, at most `steps` scopes away. -/
def walkWithin {α : Type} (store : ScopeStore) (visit : ScopeId → Option α) :
    Nat → ScopeId → Option α
  | 0, _ => none
  | steps + 1, s =>
    match visit s with
    | some a => some a
    | none =>
      match store.parent? s with
      | some p => walkWithin store visit steps p
      | none => none

/-- The first result on the way up from a scope. -/
def walk? {α : Type} (store : ScopeStore) (visit : ScopeId → Option α) (s : ScopeId) : Option α :=
  store.walkWithin visit (s.index + 1) s

/-- The value of a name as it is seen from a scope. -/
def get? (store : ScopeStore) (s : ScopeId) (name : Name) : Option Value :=
  store.walk? (fun s => store.local? s name) s

/-- The first slot of a name on the way up from a scope, with the scope that it is in. -/
def place? (store : ScopeStore) (s : ScopeId) (name : Name) : Option (ScopeId × Nat) :=
  store.walk? (fun s => (store.slot? s name).map fun slot => (s, slot)) s

/-- Overwrites a name where it is bound, if it can be seen from a scope. -/
def set? (store : ScopeStore) (s : ScopeId) (name : Name) (value : Value) : Option ScopeStore :=
  (store.place? s name).map fun (d, slot) => store.write d slot value

/-- Whether a name can be seen from a scope. -/
def contains (store : ScopeStore) (s : ScopeId) (name : Name) : Bool :=
  (store.walk? (fun s => store.slot? s name) s).isSome

/-- The nearest scope that binds a name, at most `steps` scopes away. -/
def definerWithin (store : ScopeStore) (name : Name) : Nat → ScopeId → Option ScopeId
  | 0, _ => none
  | steps + 1, s =>
    if (store.local? s name).isSome then some s
    else match store.parent? s with
      | some p => definerWithin store name steps p
      | none => none

/-- The nearest scope that binds a name, looked for from a scope on along the parents. -/
def definer? (store : ScopeStore) (s : ScopeId) (name : Name) : Option ScopeId :=
  definerWithin store name (s.index + 1) s

/-- The number of steps does not matter as long as it reaches the root. -/
theorem walkWithin_eq {α : Type} {store : ScopeStore} {visit : ScopeId → Option α} {m n : Nat}
    {s : ScopeId} (hm : s.index < m) (hn : s.index < n) :
    store.walkWithin visit m s = store.walkWithin visit n s := by
  induction m generalizing n s with
  | zero => omega
  | succ m ih =>
    cases n with
    | zero => omega
    | succ n =>
      simp only [walkWithin]
      split
      · rfl
      · cases hp : store.parent? s with
        | none => rfl
        | some p =>
          have := lt_of_parent? hp
          exact ih (by omega) (by omega)

/-- A walk visits a scope first and goes on from its parent. -/
theorem walk?_step {α : Type} (store : ScopeStore) (visit : ScopeId → Option α) (s : ScopeId) :
    store.walk? visit s = (visit s).or ((store.parent? s).bind (store.walk? visit)) := by
  rw [walk?, walkWithin]
  cases visit s with
  | some a => rfl
  | none =>
    cases hp : store.parent? s with
    | none => rfl
    | some p => exact walkWithin_eq (lt_of_parent? hp) (Nat.lt_succ_self p.index)

theorem definerWithin_eq_walkWithin (store : ScopeStore) (name : Name) (steps : Nat)
    (s : ScopeId) : store.definerWithin name steps s = store.walkWithin
      (fun s => if (store.local? s name).isSome then some s else none) steps s := by
  induction steps generalizing s with
  | zero => rfl
  | succ steps ih =>
    rw [definerWithin, walkWithin]
    split
    · rfl
    · cases store.parent? s with
      | none => rfl
      | some p => exact ih p

/-- A name is looked for in a scope first and in its parent next. -/
theorem definer?_eq (store : ScopeStore) (s : ScopeId) (name : Name) :
    store.definer? s name
      = if (store.local? s name).isSome then some s
        else (store.parent? s).bind fun p => store.definer? p name := by
  have whole : ∀ s, store.definer? s name = store.walk?
      (fun s => if (store.local? s name).isSome then some s else none) s := fun s =>
    store.definerWithin_eq_walkWithin name (s.index + 1) s
  simp only [whole]
  rw [walk?_step]
  split <;> rfl

theorem local?_of_definerWithin {store : ScopeStore} {name : Name} {steps : Nat} {s d : ScopeId}
    (h : store.definerWithin name steps s = some d) : (store.local? d name).isSome := by
  induction steps generalizing s with
  | zero => cases h
  | succ steps ih =>
      -- the scope binds the name itself, or the search goes on from its parent
      rw [definerWithin] at h
      split at h
      · next here =>
        cases h
        exact here
      · split at h
        · exact ih h
        · cases h

/-! ## What can be seen of the cells -/

theorem parent?_eq (store : ScopeStore) (s : ScopeId) :
    store.parent? s = (store.scope? s).bind Scope.parent := by
  rw [scope?, Option.bind_map]
  rfl

theorem local?_eq (store : ScopeStore) (s : ScopeId) (name : Name) :
    store.local? s name = (store.scope? s).bind (·.local? name) := by
  simp only [local?, Bindings.get?_eq, scope?, Option.bind_map]
  rfl

theorem names_eq (store : ScopeStore) (s : ScopeId) :
    store.names s = ((store.scope? s).map (·.names)).getD [] := by
  rw [scope?, Option.map_map]
  rfl

/-- A name that is bound in a scope has a slot there, and only such a name. -/
theorem local?_isSome (store : ScopeStore) (s : ScopeId) (name : Name) :
    (store.local? s name).isSome = (store.slot? s name).isSome := by
  simp only [local?, slot?, Option.isSome_bind, Bindings.get?_isSome]

/-- Writing into the slot of a name is binding the name once more. -/
theorem write_eq_define {store : ScopeStore} {s : ScopeId} {name : Name} {slot : Nat}
    (known : store.slot? s name = some slot) (value : Value) :
    store.write s slot value = store.define s name value := by
  obtain ⟨c, there, known⟩ := Option.bind_eq_some_iff.mp known
  simp only [write, define, change, ScopeStore.mk.injEq]
  refine Array.ext_getElem? fun i => ?_
  rw [Array.getElem?_modify, Array.getElem?_modify]
  split
  · next same =>
    rw [← same, ← cell?, there, Option.map_some, Option.map_some, Bindings.define_of_slot? known]
  · rfl

/-! ## All walks stop at the nearest scope that binds the name -/

theorem walk?_eq {α : Type} {store : ScopeStore} {visit : ScopeId → Option α} {name : Name}
    (stops : ∀ s, (visit s).isSome = (store.local? s name).isSome) (s : ScopeId) :
    store.walk? visit s = (store.definer? s name).bind visit := by
  rw [walk?, definer?]
  generalize s.index + 1 = steps
  induction steps generalizing s with
  | zero => rfl
  | succ steps ih =>
      rw [walkWithin, definerWithin, ← stops]
      cases found : visit s with
      | some a => simp [found]
      | none =>
          cases store.parent? s with
          | none => rfl
          | some p => exact ih p

theorem get?_eq (store : ScopeStore) (s : ScopeId) (name : Name) :
    store.get? s name = (store.definer? s name).bind fun d => store.local? d name :=
  walk?_eq (fun _ => rfl) s

theorem set?_eq (store : ScopeStore) (s : ScopeId) (name : Name) (value : Value) :
    store.set? s name value = (store.definer? s name).map fun d => store.define d name value := by
  rw [set?, place?, walk?_eq fun s => by rw [Option.isSome_map, local?_isSome]]
  cases found : store.definer? s name with
  | none => rfl
  | some d =>
      -- the scope binds the name, so it has a slot for it
      have bound := local?_of_definerWithin found
      rw [local?_isSome] at bound
      obtain ⟨slot, known⟩ := Option.isSome_iff_exists.mp bound
      rw [Option.bind_some, known]
      exact congrArg some (write_eq_define known value)

theorem contains_eq (store : ScopeStore) (s : ScopeId) (name : Name) :
    store.contains s name = (store.definer? s name).isSome := by
  rw [contains, walk?_eq fun s => (local?_isSome store s name).symm]
  cases found : store.definer? s name with
  | none => rfl
  | some d => rw [Option.bind_some, ← local?_isSome, local?_of_definerWithin found]; rfl

end ScopeStore

end StatementEngine
