import StatementEngine.Proofs.Scope.Lookup

/-!
# Scopes after a history of operations

**A store of scopes is a forest of maps that remember the order of insertion.** Whatever has been
done to it, its scopes show just what a history of operations leaves behind (`Recalls`): a scope has
the parent that it was made with, its names stand in the order in which they were first defined, and
a name has the value that was written last. On top of that every operation means what it means on a
forest of maps (`ScopeStore.IsForest`): lookups end, they all stop at the nearest scope that has the
name, and a write changes nothing but the lookups that end where it has been made.

One operation adds to the history what it makes, defines and writes (`Recalls.step`); a whole
history follows by induction (`Recalls.replay`).
-/

namespace StatementEngine

/-- An operation on a store of scopes, each but the first on a scope of the store. -/
inductive ScopeOperation where
  | new
  | child (s : ScopeId)
  | define (s : ScopeId) (name : Name) (value : Value)
  | get (s : ScopeId) (name : Name)
  | set (s : ScopeId) (name : Name) (value : Value)
  | contains (s : ScopeId) (name : Name)
  | getLocal (s : ScopeId) (name : Name)
  | names (s : ScopeId)
  | len (s : ScopeId)

namespace ScopeOperation

/-- The scope that an operation is carried out on. -/
def handle? : ScopeOperation → Option ScopeId
  | .new => none
  | .child s | .define s .. | .get s _ | .set s .. | .contains s _ | .getLocal s _ | .names s
  | .len s => some s

/-- The store after an operation. -/
def apply (store : ScopeStore) : ScopeOperation → ScopeStore
  | .new => store.add none
  | .child s => store.add (some s)
  | .define s name value => store.define s name value
  | .set s name value => (store.set? s name value).getD store
  | .get .. | .contains .. | .getLocal .. | .names _ | .len _ => store

/-- The parent of the scope that an operation makes, if it makes one. -/
def made? : ScopeOperation → Option (Option ScopeId)
  | .new => some none
  | .child s => some (some s)
  | _ => none

/-- The name that an operation defines in a scope, if it defines one there. -/
def defined? (s : ScopeId) : ScopeOperation → Option Name
  | .define d name _ => if d = s then some name else none
  | _ => none

/-- The scope, the name and the value that an operation writes, if it writes any. -/
def written? (store : ScopeStore) : ScopeOperation → Option (ScopeId × Name × Value)
  | .define s name value => some (s, name, value)
  | .set s name value => (store.definer? s name).map fun d => (d, name, value)
  | _ => none

end ScopeOperation

namespace ScopeStore

/-- The store after a history of operations, the oldest one first. -/
def replay (store : ScopeStore) (ops : List ScopeOperation) : ScopeStore :=
  ops.foldl ScopeOperation.apply store

/-- Every operation of the history is on a scope that is there by then. -/
def Admits (store : ScopeStore) : List ScopeOperation → Prop
  | [] => True
  | op :: rest => (∀ s ∈ op.handle?, s.index < store.scopes.size) ∧ Admits (op.apply store) rest

/-- What a history writes, the oldest first. -/
def writes (store : ScopeStore) : List ScopeOperation → List (ScopeId × Name × Value)
  | [] => []
  | op :: rest => (op.written? store).toList ++ writes (op.apply store) rest

/-! ## What a history leaves behind -/

/-- The last value in a list of writes for a name of a scope. -/
def lastWritten (written : List (ScopeId × Name × Value)) (s : ScopeId) (n : Name) :
    Option Value :=
  ((written.filter fun w => w.1 = s ∧ w.2.1 = n).getLast?).map (·.2.2)

theorem lastWritten_append (written later : List (ScopeId × Name × Value)) (s : ScopeId)
    (n : Name) : lastWritten (written ++ later) s n
      = (lastWritten later s n).or (lastWritten written s n) := by
  simp only [lastWritten, List.filter_append, List.getLast?_append]
  cases (later.filter fun w => w.1 = s ∧ w.2.1 = n).getLast? with
  | none => simp
  | some w => simp

/-- The store shows what has been made, defined in each scope, and written so far: a scope has the
parent that it was made with, a name its place from when it was first defined, and its value is the
last one written. -/
structure Recalls (made : List (Option ScopeId)) (defined : ScopeId → List Name)
    (written : List (ScopeId × Name × Value)) (store : ScopeStore) : Prop where
  parents : ∀ s, (store.scope? s).map Scope.parent = made[s.index]?
  names : ∀ s, store.names s = (defined s).eraseDups
  values : ∀ s n, store.local? s n = lastWritten written s n

variable {store : ScopeStore} {made : List (Option ScopeId)} {defined : ScopeId → List Name}
  {written : List (ScopeId × Name × Value)}

theorem recalls_empty : Recalls [] (fun _ => []) [] .empty where
  parents _ := rfl
  names _ := rfl
  values _ _ := rfl

namespace Recalls

theorem size_eq (recalls : Recalls made defined written store) :
    store.scopes.size = made.length := by
  -- both are the first number that names no scope
  refine Nat.le_antisymm (Nat.le_of_not_lt fun less => ?_) (Nat.le_of_not_lt fun less => ?_)
  · obtain ⟨a, there⟩ := scope?_of_lt (i := ⟨made.length⟩) less
    simpa [there] using recalls.parents ⟨made.length⟩
  · have unmade := recalls.parents store.next
    rw [scope?_next, next, List.getElem?_eq_getElem less] at unmade
    cases unmade

theorem add (recalls : Recalls made defined written store) {parent : Option ScopeId}
    (there : ∀ s ∈ parent, s.index < store.scopes.size) :
    Recalls (made ++ [parent]) defined written (store.add parent) where
  parents s := by
    have kept : parent.filter (·.index < store.scopes.size) = parent := by
      cases parent with
      | none => rfl
      | some p => simp [Option.filter, there p rfl]
    rw [scope?_add, kept]
    split
    · next new =>
      subst new
      simp [next, recalls.size_eq]
    · next old =>
      rw [recalls.parents, List.getElem?_append]
      split
      · rfl
      · next new =>
        have further : s.index ≠ made.length := fun same => old (by
          rw [next, recalls.size_eq, ← same])
        rw [List.getElem?_eq_none (by omega), List.getElem?_eq_none (by simp; omega)]
  names s := by
    rw [← recalls.names, names_eq, names_eq, scope?_add]
    split
    · next new => rw [new, scope?_next]; rfl
    · rfl
  values s n := by
    rw [← recalls.values, local?_eq, local?_eq, scope?_add]
    split
    · next new => rw [new, scope?_next]; rfl
    · rfl

theorem define (recalls : Recalls made defined written store) {d : ScopeId}
    (there : d.index < store.scopes.size) (name : Name) (value : Value) :
    Recalls made (fun s => defined s ++ if d = s then [name] else []) (written ++ [(d, name, value)])
      (store.define d name value) where
  parents s := by
    rw [← recalls.parents, scope?_define]
    split
    · simp [Function.comp_def]
    · rfl
  names s := by
    rw [names_define there, recalls.names, recalls.names]
    by_cases same : d = s
    · subst same
      simp only [if_pos, true_and, List.eraseDups_append, List.removeAll, List.mem_eraseDups]
      by_cases old : name ∈ defined d
      · simp [old]
      · simp [old, List.eraseDups_cons]
    · rw [if_neg same, List.append_nil, if_neg fun h => same h.1.symm]
  values s n := by
    rw [local?_define there, recalls.values, lastWritten_append]
    by_cases same : s = d ∧ n = name
    · obtain ⟨rfl, rfl⟩ := same
      simp [lastWritten]
    · have other : ¬ (d = s ∧ name = n) := fun h => same ⟨h.1.symm, h.2.symm⟩
      simp [lastWritten, same, other]

/-- Writing a name that a scope binds defines no name. -/
theorem overwrite (recalls : Recalls made defined written store) {d : ScopeId} {name : Name}
    (bound : (store.local? d name).isSome) (value : Value) :
    Recalls made defined (written ++ [(d, name, value)]) (store.define d name value) := by
  obtain ⟨v, known⟩ := Option.isSome_iff_exists.mp bound
  have there := lt_of_local? known
  have defines := recalls.define there name value
  refine ⟨defines.parents, fun s => ?_, defines.values⟩
  rw [names_define there, ← recalls.names, if_neg]
  exact fun ⟨_, unbound⟩ => unbound (mem_names_iff.mpr bound)

/-- An operation adds to what is recalled what it makes, defines and writes. -/
theorem step (recalls : Recalls made defined written store) (op : ScopeOperation)
    (there : ∀ s ∈ op.handle?, s.index < store.scopes.size) :
    Recalls (made ++ op.made?.toList) (fun s => defined s ++ (op.defined? s).toList)
      (written ++ (op.written? store).toList) (op.apply store) := by
  cases op with
  | new =>
      have adds : Recalls (made ++ [none]) defined written (store.add none) :=
        recalls.add fun s h => by cases h
      simpa [ScopeOperation.made?, ScopeOperation.defined?, ScopeOperation.written?,
        ScopeOperation.apply] using adds
  | child s =>
      have adds : Recalls (made ++ [some s]) defined written (store.add (some s)) :=
        recalls.add there
      simpa [ScopeOperation.made?, ScopeOperation.defined?, ScopeOperation.written?,
        ScopeOperation.apply] using adds
  | define s name value =>
      have defines := recalls.define (there s rfl) name value
      simp only [ScopeOperation.made?, ScopeOperation.defined?, ScopeOperation.written?,
        Option.toList_none, List.append_nil, Option.toList_some]
      refine ⟨defines.parents, fun i => (defines.names i).trans ?_, defines.values⟩
      split <;> rfl
  | set s name value =>
      simp only [ScopeOperation.made?, ScopeOperation.defined?, ScopeOperation.written?,
        ScopeOperation.apply, set?_eq, Option.toList_none, List.append_nil]
      cases found : store.definer? s name with
      | none => simpa using recalls
      | some d => exact recalls.overwrite (definer?_eq_some_iff.mp found).2 value
  | get | contains | getLocal | names | len =>
      simpa [ScopeOperation.made?, ScopeOperation.defined?, ScopeOperation.written?,
        ScopeOperation.apply] using recalls

/-- A history adds to what is recalled what its operations make, define and write. -/
theorem replay (recalls : Recalls made defined written store) {ops : List ScopeOperation}
    (admits : store.Admits ops) :
    Recalls (made ++ ops.filterMap ScopeOperation.made?)
      (fun s => defined s ++ ops.filterMap (ScopeOperation.defined? s))
      (written ++ store.writes ops) (store.replay ops) := by
  induction ops generalizing store made defined written with
  | nil => simpa [writes, ScopeStore.replay] using recalls
  | cons op rest ih =>
      obtain ⟨there, admits⟩ := admits
      have after := ih (recalls.step op there) admits
      have split : ∀ {β : Type} (f : ScopeOperation → Option β),
          (op :: rest).filterMap f = (f op).toList ++ rest.filterMap f := by
        intro β f
        rw [List.filterMap_cons]
        cases f op <;> rfl
      simpa only [split, writes, List.append_assoc, ScopeStore.replay, List.foldl_cons] using after

end Recalls

/-! ## Lookups and writes as in a forest of maps -/

/-- The operations on the store are those on a forest of maps that remember the order of
insertion. -/
structure IsForest (store : ScopeStore) : Prop where
  /-- In each scope, a name has one entry, and the index leads to it. -/
  linked : ∀ s c, store.cell? s = some c → c.bindings.names.Nodup ∧
    ∀ n slot, c.bindings.slot? n = some slot ↔ ∃ v, c.bindings.entries[slot]? = some (n, v)
  len : ∀ s, store.len s = (store.names s).length
  acyclic : WellFounded fun p s => store.parent? s = some p
  /-- A walk goes on until it has a result or there is no parent. -/
  ends : ∀ {α : Type} (visit : ScopeId → Option α) (s : ScopeId),
    store.walk? visit s = (visit s).or ((store.parent? s).bind (store.walk? visit))
  nearest : ∀ s n d, store.definer? s n = some d ↔ store.FreePath n s d ∧ n ∈ store.names d
  get : ∀ s n, store.get? s n = (store.definer? s n).bind fun d => store.local? d n
  set : ∀ s n v, store.set? s n v = (store.definer? s n).map fun d => store.define d n v
  contains : ∀ s n, store.contains s n = (store.definer? s n).isSome
  succeed : ∀ s n v, (store.get? s n).isSome = store.contains s n ∧
    (store.set? s n v).isSome = store.contains s n
  /-- A name that is overwritten is overwritten for exactly the scopes with the same nearest
  binding. -/
  afterSet : ∀ s n v t, store.set? s n v = some t →
    (∀ x, store.definer? x n = store.definer? s n → t.get? x n = some v) ∧
    (∀ x m, ¬ (m = n ∧ store.definer? x n = store.definer? s n) → t.get? x m = store.get? x m) ∧
    (∀ x m, t.local? x m
      = if store.definer? s n = some x ∧ m = n then some v else store.local? x m) ∧
    ∀ x, t.names x = store.names x
  /-- A name that is defined is defined for exactly the scope and those below it without a nearer
  binding. -/
  afterDefine : ∀ s n v, s.index < store.scopes.size →
    (∀ x, store.FreePath n x s → (store.define s n v).get? x n = some v) ∧
    (∀ x m, ¬ (m = n ∧ store.FreePath n x s) →
      (store.define s n v).get? x m = store.get? x m) ∧
    (∀ x m, (store.define s n v).local? x m
      = if x = s ∧ m = n then some v else store.local? x m) ∧
    ∀ x, (store.define s n v).names x
      = if x = s ∧ n ∉ store.names s then store.names x ++ [n] else store.names x

theorem get?_isSome (store : ScopeStore) (s : ScopeId) (n : Name) :
    (store.get? s n).isSome = store.contains s n := by
  rw [get?_eq, contains_eq]
  cases found : store.definer? s n with
  | none => rfl
  | some d => rw [Option.bind_some, (definer?_eq_some_iff.mp found).2]; rfl

theorem isForest (store : ScopeStore) : store.IsForest where
  linked _ c _ := ⟨c.bindings.nodup_names, c.bindings.slot?_eq_some_iff⟩
  len s := by
    cases there : store.cell? s with
    | none => simp [len, names, there]
    | some c => simp [len, names, there, Bindings.len, Bindings.names]
  acyclic := store.wellFounded_parent
  ends := store.walk?_step
  nearest s n d := by rw [definer?_eq_some_iff, mem_names_iff]
  get := store.get?_eq
  set := store.set?_eq
  contains := store.contains_eq
  succeed s n v := ⟨store.get?_isSome s n, by rw [set?_eq, contains_eq, Option.isSome_map]⟩
  afterSet _ _ _ _ done :=
    ⟨fun _ => get?_set?_of_same done, fun _ _ => get?_set?_of_other done, local?_set? done,
      names_set? done⟩
  afterDefine _ n v there :=
    ⟨fun _ => get?_define_of_freePath there v, fun _ _ => get?_define_of_no_freePath there v,
      local?_define there n v, names_define there n v⟩

/-- **A store of scopes is a forest of maps that remember the order of insertion.** After any history
of operations, each on a scope that was there, the scopes have the parents that they were made with,
their names stand in the order in which they were first defined, and each name has the value written
last. Index and entries of each scope fit together, every lookup ends, reading, overwriting and
asking for a name succeed together and stop at the same nearest scope, and a write is seen from
exactly the scopes whose lookup stops where it has been made. -/
theorem replay_isForest {ops : List ScopeOperation} (admits : ScopeStore.empty.Admits ops) :
    Recalls (ops.filterMap ScopeOperation.made?)
        (fun s => ops.filterMap (ScopeOperation.defined? s))
        (ScopeStore.empty.writes ops) (ScopeStore.empty.replay ops) ∧
      (ScopeStore.empty.replay ops).IsForest :=
  ⟨by simpa using recalls_empty.replay admits, isForest _⟩

/-- A name that is defined twice in a scope, hidden below it, and overwritten from there. -/
theorem replay_isForest_hidden :
    let ops : List ScopeOperation :=
      [.new, .define ⟨0⟩ "b" .nil, .define ⟨0⟩ "a" .nil, .define ⟨0⟩ "b" (.int 1), .child ⟨0⟩,
        .define ⟨1⟩ "b" (.int 2), .set ⟨1⟩ "a" (.int 3), .set ⟨1⟩ "b" (.int 4)]
    ScopeStore.empty.Admits ops ∧ (ScopeStore.empty.replay ops).names ⟨0⟩ = ["b", "a"] ∧
      (ScopeStore.empty.replay ops).local? ⟨0⟩ "a" = some (.int 3) ∧
      (ScopeStore.empty.replay ops).local? ⟨0⟩ "b" = some (.int 1) ∧
      (ScopeStore.empty.replay ops).local? ⟨1⟩ "b" = some (.int 4) := by
  intro ops
  have admits : ScopeStore.empty.Admits ops := by
    simp only [ops, Admits, ScopeOperation.handle?, Option.mem_def, Option.some.injEq]
    refine ⟨by simp, ?_, ?_, ?_, ?_, ?_, ?_, ?_, trivial⟩
    all_goals
      rintro s rfl
      decide
  obtain ⟨recalls, -⟩ := replay_isForest admits
  refine ⟨admits, (recalls.names ⟨0⟩).trans ?_, (recalls.values ⟨0⟩ "a").trans ?_,
    (recalls.values ⟨0⟩ "b").trans ?_, (recalls.values ⟨1⟩ "b").trans ?_⟩
  · decide
  · rfl
  · rfl
  · rfl

end ScopeStore

end StatementEngine
