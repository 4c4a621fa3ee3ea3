import Mathlib.Data.List.Forall2
import StatementEngine.Proofs.Value.Transitivity

/-!
# The equality of scripts and the stricter one

**The equality of scripts is symmetric and weaker than the strict one.** The two differ only in
numbers: an integer may equal a float and is never identical to one. So two values are identical
exactly if they are equal and have no integer at a place where the other has a float
(`Value.Mixed`). A value is equal to itself exactly if it is identical to itself, which is if there
is no NaN in it (`Value.HoldsNaN`).

The main result is `identical_iff_equal_unmixed`.
-/

namespace StatementEngine

namespace Double

variable {x y : Double}

/-- A double equals itself unless it is a NaN. -/
theorem equal_self_iff : x.equal x = true ↔ x.isNaN = false := by
  simp [equal]

end Double

namespace Value

variable {a b : Value} {as bs : List Value} {es fs : Dictionary Value none}

/-- A NaN occurs in the value. -/
inductive HoldsNaN : Value → Prop
  | float {x : Double} (nan : x.isNaN = true) : HoldsNaN (float x)
  | item {items : List Value} {v : Value} (hv : v ∈ items) (h : HoldsNaN v) : HoldsNaN (list items)
  | entry {entries : Dictionary Value none} {e : String × Value} (he : e ∈ entries)
      (h : HoldsNaN e.2) : HoldsNaN (map entries)

/-- At some place one value has an integer and the other one a float. -/
inductive Mixed : Value → Value → Prop
  | intFloat (n : Int64) (x : Double) : Mixed (int n) (float x)
  | floatInt (x : Double) (n : Int64) : Mixed (float x) (int n)
  | item {as bs : List Value} {i : Nat} {a b : Value} (ha : as[i]? = some a) (hb : bs[i]? = some b)
      (mixed : Mixed a b) : Mixed (list as) (list bs)
  | entry {es fs : Dictionary Value none} {i : Nat} {e f : String × Value}
      (he : es.toList[i]? = some e) (hf : fs.toList[i]? = some f) (key : e.1 = f.1)
      (mixed : Mixed e.2 f.2) : Mixed (map es) (map fs)

/-! ## Symmetry -/

theorem equalItems_symm (parts : ∀ a ∈ as, ∀ {b : Value}, a.equal b = true → b.equal a = true)
    (h : equalItems as bs = true) : equalItems bs as = true := by
  induction as generalizing bs with
  | nil =>
      cases bs with
      | nil => exact h
      | cons b bs => cases h
  | cons a as ih =>
      obtain ⟨b, bs, rfl, equal, items⟩ := equalItems_cons_iff.mp h
      obtain ⟨first, rest⟩ := List.forall_mem_cons.mp parts
      exact equalItems_cons_iff.mpr ⟨a, as, rfl, first equal, ih rest items⟩

theorem equal_symm (a : Value) {b : Value} (h : a.equal b = true) : b.equal a = true := by
  induction a using induction generalizing b with
  | list as ih =>
      obtain ⟨bs, rfl, items⟩ := equal_iff.mp h
      exact equalItems_symm ih items
  | map es ih =>
      obtain ⟨fs, rfl, entries⟩ := equal_iff.mp h
      obtain ⟨keys, values⟩ := equalEntries_iff.mp entries
      exact equalEntries_iff.mpr ⟨keys.symm, equalItems_symm ih values⟩
  | scalar a notList notMap =>
      match a with
      | float x =>
          rcases equal_iff.mp h with ⟨y, rfl, same⟩ | ⟨n, rfl, same⟩
          · exact Double.equal_symm same
          · exact same
      | int n =>
          rcases equal_iff.mp h with rfl | ⟨x, rfl, same⟩
          · exact h
          · exact same
      | list as => exact absurd rfl (notList as)
      | map es => exact absurd rfl (notMap es)
      -- any other value only equals itself
      | nil | bool _ | str _ | function _ => exact equal_iff.mp h ▸ h

theorem equal_comm (a b : Value) : a.equal b = b.equal a :=
  Bool.eq_iff_iff.mpr ⟨equal_symm a, equal_symm b⟩

/-! ## Equality of collections -/

theorem equalItems_iff_forall₂ :
    equalItems as bs = true ↔ List.Forall₂ (fun a b => a.equal b) as bs := by
  induction as generalizing bs with
  | nil => cases bs <;> simp [equalItems]
  | cons a as ih => cases bs <;> simp [equalItems, ih]

/-- Lists are equal if they have the same length and the elements of each place are equal. -/
theorem equalItems_iff : equalItems as bs = true ↔ as.length = bs.length ∧
    ∀ (i : Nat) (a b : Value), as[i]? = some a → bs[i]? = some b → a.equal b = true := by
  constructor
  · intro h
    exact ⟨(equalItems_iff_forall₂.mp h).length_eq, fun i a b => equal_getElem? h⟩
  · rintro ⟨length, items⟩
    refine equalItems_iff_forall₂.mpr (List.forall₂_iff_get.mpr ⟨length, fun i ha hb => ?_⟩)
    exact items i _ _ (List.getElem?_eq_getElem ha) (List.getElem?_eq_getElem hb)

/-- A key of equal maps is in both of them, with equal values, or in neither. -/
theorem equal_find? {low high : Option String} {es : Dictionary Value low}
    {fs : Dictionary Value high} (h : equalEntries es fs = true) (key : String) :
    Option.Rel (fun a b => a.equal b) (es.find? key) (fs.find? key) := by
  induction es generalizing high with
  | nil =>
      cases fs with
      | nil => exact .none
      | cons => cases h
  | cons k _ a es ih =>
      cases fs with
      | nil => cases h
      | cons l _ b fs =>
          simp only [equalEntries, Bool.and_eq_true, beq_iff_eq] at h
          obtain ⟨⟨rfl, equal⟩, entries⟩ := h
          rw [Dictionary.find?, Dictionary.find?]
          by_cases here : k = key
          · rw [if_pos here, if_pos here]
            exact .some equal
          · rw [if_neg here, if_neg here]
            exact ih entries

/-! ## Strictness -/

theorem mixed_list_cons_iff :
    Mixed (list (a :: as)) (list (b :: bs)) ↔ Mixed a b ∨ Mixed (list as) (list bs) := by
  constructor
  · intro h
    cases h with
    | @item _ _ i _ _ ha hb mixed =>
        cases i with
        | zero =>
            cases ha
            cases hb
            exact Or.inl mixed
        | succ i => exact Or.inr (.item ha hb mixed)
  · rintro (mixed | h)
    · exact .item (i := 0) rfl rfl mixed
    · cases h with
      | @item _ _ i _ _ ha hb mixed => exact .item (i := i + 1) ha hb mixed

/-- Maps with the same keys are mixed where the lists of their values are. -/
theorem mixed_map_iff (keys : es.keys = fs.keys) :
    Mixed (map es) (map fs) ↔ Mixed (list es.values) (list fs.values) := by
  constructor
  · intro h
    cases h with
    | entry he hf _ mixed => exact .item (getElem?_values he) (getElem?_values hf) mixed
  · intro h
    cases h with
    | @item _ _ i _ _ ha hb mixed =>
        simp only [Dictionary.values, List.getElem?_map, Option.map_eq_some_iff] at ha hb
        obtain ⟨e, he, rfl⟩ := ha
        obtain ⟨f, hf, rfl⟩ := hb
        refine .entry he hf ?_ mixed
        have same : es.keys[i]? = fs.keys[i]? := by rw [keys]
        simpa [Dictionary.keys, he, hf] using same

/-- Numbers of two kinds are mixed, and no other values without parts are. -/
theorem identical_iff_of_scalar (ha : ∀ as, a ≠ list as) (ha' : ∀ es, a ≠ map es) :
    a.identical b = true ↔ a.equal b = true ∧ ¬ Mixed a b := by
  have mixed_iff : Mixed a b ↔
      (∃ n x, a = int n ∧ b = float x) ∨ ∃ x n, a = float x ∧ b = int n := by
    constructor
    · intro h
      cases h with
      | intFloat n x => exact Or.inl ⟨n, x, rfl, rfl⟩
      | floatInt x n => exact Or.inr ⟨x, n, rfl, rfl⟩
      | item => exact absurd rfl (ha _)
      | entry => exact absurd rfl (ha' _)
    · rintro (⟨n, x, rfl, rfl⟩ | ⟨x, n, rfl, rfl⟩)
      · exact .intFloat n x
      · exact .floatInt x n
  rw [mixed_iff]
  cases a <;> cases b <;> simp_all [identical, equal]

theorem identicalItems_iff
    (parts : ∀ a ∈ as, ∀ b : Value, a.identical b = true ↔ a.equal b = true ∧ ¬ Mixed a b) :
    identicalItems as bs = true ↔ equalItems as bs = true ∧ ¬ Mixed (list as) (list bs) := by
  induction as generalizing bs with
  | nil =>
      cases bs with
      | nil =>
          refine iff_of_true rfl ⟨rfl, fun h => ?_⟩
          cases h with
          | item ha => cases ha
      | cons b bs => simp [identicalItems, equalItems]
  | cons a as ih =>
      cases bs with
      | nil => simp [identicalItems, equalItems]
      | cons b bs =>
          obtain ⟨first, rest⟩ := List.forall_mem_cons.mp parts
          rw [identicalItems, equalItems, mixed_list_cons_iff, not_or, Bool.and_eq_true,
            Bool.and_eq_true, first b, ih rest, and_and_and_comm]

/-- Maps are identical if they have the same keys and the lists of their values are identical. -/
theorem identicalEntries_iff {low high : Option String} {es : Dictionary Value low}
    {fs : Dictionary Value high} : identicalEntries es fs = true ↔
      es.keys = fs.keys ∧ identicalItems es.values fs.values = true := by
  induction es generalizing high with
  | nil =>
      cases fs <;> simp [identicalEntries, identicalItems, Dictionary.keys, Dictionary.values,
        Dictionary.toList]
  | cons k _ a es ih =>
      cases fs with
      | nil => simp [identicalEntries, Dictionary.keys, Dictionary.toList]
      | cons l _ b fs =>
          simp only [identicalEntries, Bool.and_eq_true, beq_iff_eq, ih, Dictionary.keys,
            Dictionary.values, Dictionary.toList, List.map_cons, List.cons.injEq, identicalItems]
          exact and_and_and_comm

theorem identical_iff (a b : Value) : a.identical b = true ↔ a.equal b = true ∧ ¬ Mixed a b := by
  induction a using induction generalizing b with
  | list as ih =>
      cases b with
      | list bs => exact identicalItems_iff ih
      | _ => simp [identical, equal]
  | map es ih =>
      cases b with
      | map fs =>
          rw [identical, equal, identicalEntries_iff, equalEntries_iff, and_assoc]
          refine and_congr_right fun keys => ?_
          rw [mixed_map_iff keys]
          exact identicalItems_iff ih
      | _ => simp [identical, equal]
  | scalar a notList notMap => exact identical_iff_of_scalar notList notMap

/-! ## Values that equal themselves -/

theorem holdsNaN_list_iff : HoldsNaN (list as) ↔ ∃ v ∈ as, v.HoldsNaN := by
  constructor
  · intro h
    cases h with
    | item hv h => exact ⟨_, hv, h⟩
  · rintro ⟨v, hv, h⟩
    exact .item hv h

theorem holdsNaN_map_iff : HoldsNaN (map es) ↔ ∃ v ∈ es.values, v.HoldsNaN := by
  constructor
  · intro h
    cases h with
    | entry he h => exact ⟨_, List.mem_map_of_mem he, h⟩
  · rintro ⟨v, hv, h⟩
    obtain ⟨e, he, rfl⟩ := List.mem_map.mp hv
    exact .entry he h

theorem equalItems_self_iff (parts : ∀ v ∈ as, (v.equal v = true ↔ ¬ v.HoldsNaN)) :
    equalItems as as = true ↔ ∀ v ∈ as, ¬ v.HoldsNaN := by
  induction as with
  | nil => simp [equalItems]
  | cons a as ih =>
      obtain ⟨first, rest⟩ := List.forall_mem_cons.mp parts
      rw [equalItems, Bool.and_eq_true, first, ih rest, List.forall_mem_cons]

theorem equal_self_iff (a : Value) : a.equal a = true ↔ ¬ a.HoldsNaN := by
  induction a using induction with
  | list as ih => rw [equal, equalItems_self_iff ih, holdsNaN_list_iff]; simp
  | map es ih =>
      rw [equal, equalEntries_iff, and_iff_right rfl, equalItems_self_iff ih, holdsNaN_map_iff]
      simp
  | scalar a notList notMap =>
      cases a with
      | float x =>
          rw [equal, Double.equal_self_iff, ← Bool.not_eq_true, not_iff_not]
          constructor
          · exact .float
          · intro h
            cases h with
            | float nan => exact nan
      | list as => exact absurd rfl (notList as)
      | map es => exact absurd rfl (notMap es)
      | nil | bool | int | str | function =>
          refine iff_of_true (by simp [equal]) fun h => ?_
          cases h

/-- Nothing is mixed with itself. -/
theorem not_mixed_self (a : Value) : ¬ Mixed a a := by
  suffices ∀ b, Mixed a b → a ≠ b from fun mixed => this a mixed rfl
  intro b mixed
  induction mixed with
  | intFloat | floatInt => simp
  | item ha hb _ ih =>
      rintro ⟨⟩
      exact ih (Option.some.inj (ha.symm.trans hb))
  | entry he hf _ _ ih =>
      rintro ⟨⟩
      exact ih (congrArg Prod.snd (Option.some.inj (he.symm.trans hf)))

theorem identical_self_iff (a : Value) : a.identical a = true ↔ ¬ a.HoldsNaN := by
  rw [identical_iff, equal_self_iff, and_iff_left (not_mixed_self a)]

/-- **The equality of scripts is symmetric and weaker than the strict one.** Values are identical
exactly if they are equal and no integer of one meets a float of the other. A value equals itself,
and is identical to itself, exactly if it holds no NaN. Lists are equal if they have the same length
and their elements are equal in pairs, and maps if they have the same keys and their values are
equal in pairs, so that no key leads to values that are not equal. -/
theorem identical_iff_equal_unmixed (a b : Value) :
    a.equal b = b.equal a ∧
      (a.identical b = true ↔ a.equal b = true ∧ ¬ Mixed a b) ∧
      (a.equal a = true ↔ ¬ a.HoldsNaN) ∧ (a.identical a = true ↔ ¬ a.HoldsNaN) ∧
      (∀ as, a = list as → (a.equal b = true ↔ ∃ bs, b = list bs ∧ as.length = bs.length ∧
        ∀ (i : Nat) (v w : Value), as[i]? = some v → bs[i]? = some w → v.equal w = true)) ∧
      (∀ es, a = map es → (a.equal b = true ↔ ∃ fs, b = map fs ∧
        es.keys = fs.keys ∧ List.Forall₂ (fun v w => v.equal w) es.values fs.values)) ∧
      ∀ es fs, a = map es → b = map fs → a.equal b = true → ∀ key,
        Option.Rel (fun v w : Value => v.equal w) (es.find? key) (fs.find? key) := by
  refine ⟨equal_comm a b, identical_iff a b, equal_self_iff a, identical_self_iff a, ?_, ?_, ?_⟩
  · rintro as rfl
    exact equal_iff.trans (exists_congr fun bs => and_congr_right fun _ => equalItems_iff)
  · rintro es rfl
    refine equal_iff.trans (exists_congr fun fs => and_congr_right fun _ => ?_)
    rw [equalEntries_iff, equalItems_iff_forall₂]
  · rintro es fs rfl rfl equal
    rw [Value.equal] at equal
    exact equal_find? equal

/-- An integer that meets a float inside of a list, next to a map. -/
theorem identical_iff_equal_unmixed_number :
    let whole : Double := ⟨0x4008000000000000⟩
    let half : Double := ⟨0x3fe0000000000000⟩
    let a := list [int 3, map (.ofEntries [("k", float half)])]
    let b := list [float whole, map (.ofEntries [("k", float half)])]
    a.equal b = true ∧ b.equal a = true ∧ Mixed a b ∧ a.identical b = false ∧ ¬ a.HoldsNaN := by
  intro whole half a b
  have equal : a.equal b = true := by decide +kernel
  have mixed : Mixed a b := .item (i := 0) rfl rfl (.intFloat 3 whole)
  obtain ⟨comm, identical, self, -⟩ := identical_iff_equal_unmixed a b
  refine ⟨equal, comm ▸ equal, mixed, ?_, self.mp (by decide +kernel)⟩
  exact Bool.eq_false_iff.mpr fun same => (identical.mp same).2 mixed

end Value

end StatementEngine
