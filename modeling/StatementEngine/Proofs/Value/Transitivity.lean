import StatementEngine.Proofs.Number.Rounding
import StatementEngine.Value.Equality

/-!
# Where the equality of scripts is transitive

**The equality of scripts is transitive but for integers that share a float.** An integer equals the
float that it is rounded to, and from 2^53 on several integers are rounded to the same one. So two
values that equal a third one equal each other unless they have different integers at a place where
the third one has a float (`Value.Clash`), and then these integers are at least 2^53 in size.

A NaN is equal to nothing, so a value that equals another one holds none.

The main result is `equal_iff_not_clash`.
-/

namespace StatementEngine

namespace Double

variable {x y z : Double}

theorem equal_symm (h : x.equal y = true) : y.equal x = true := by
  simp only [equal, Bool.and_eq_true, Bool.or_eq_true, beq_iff_eq] at h ⊢
  obtain ⟨⟨hx, hy⟩, h⟩ := h
  refine ⟨⟨hy, hx⟩, ?_⟩
  rcases h with same | ⟨zero, zero'⟩
  · exact Or.inl same.symm
  · exact Or.inr ⟨zero', zero⟩

theorem equal_trans (h : x.equal y = true) (h' : y.equal z = true) : x.equal z = true := by
  simp only [equal, Bool.and_eq_true, Bool.or_eq_true, beq_iff_eq] at h h' ⊢
  refine ⟨⟨h.1.1, h'.1.2⟩, ?_⟩
  rcases h.2 with rfl | ⟨zero, -⟩
  · exact h'.2
  · rcases h'.2 with rfl | ⟨-, zero'⟩
    · exact h.2
    · exact Or.inr ⟨zero, zero'⟩

end Double

namespace Value

variable {a b c : Value} {as bs cs : List Value} {es fs gs : Dictionary Value none}

/-- At some place the first and the third value have different integers and the second has a
float. -/
inductive Clash : Value → Value → Value → Prop
  | number {n m : Int64} {x : Double} (apart : n ≠ m) : Clash (int n) (float x) (int m)
  | item {as bs cs : List Value} {i : Nat} {a b c : Value} (ha : as[i]? = some a)
      (hb : bs[i]? = some b) (hc : cs[i]? = some c) (clash : Clash a b c) :
      Clash (list as) (list bs) (list cs)
  | entry {es fs gs : Dictionary Value none} {i : Nat} {e f g : String × Value}
      (he : es.toList[i]? = some e) (hf : fs.toList[i]? = some f) (hg : gs.toList[i]? = some g)
      (clash : Clash e.2 f.2 g.2) : Clash (map es) (map fs) (map gs)

/-- The integer occurs in the value. -/
inductive HoldsInt : Value → Int64 → Prop
  | int (n : Int64) : HoldsInt (int n) n
  | item {items : List Value} {v : Value} {n : Int64} (hv : v ∈ items) (h : HoldsInt v n) :
      HoldsInt (list items) n
  | entry {entries : Dictionary Value none} {e : String × Value} {n : Int64} (he : e ∈ entries)
      (h : HoldsInt e.2 n) : HoldsInt (map entries) n

/-! ## Induction on values -/

/-- What passes from the parts of a value to the value, and holds of values without parts, holds of
all values. -/
theorem induction {motive : Value → Prop}
    (list : ∀ items, (∀ v ∈ items, motive v) → motive (list items))
    (map : ∀ entries, (∀ v ∈ entries.values, motive v) → motive (map entries))
    (scalar : ∀ v, (∀ items, v ≠ .list items) → (∀ entries, v ≠ .map entries) → motive v) :
    ∀ v, motive v := by
  refine @Value.rec motive (fun items => ∀ v ∈ items, motive v)
    (fun _ entries => ∀ v ∈ entries.values, motive v)
    ?_ (fun _ => ?_) (fun _ => ?_) (fun _ => ?_) (fun _ => ?_) list map (fun _ => ?_)
    ?noItem ?item ?noEntry ?entry
  case noItem | noEntry => exact fun _ hv => absurd hv List.not_mem_nil
  case item => exact fun _ _ first rest => List.forall_mem_cons.mpr ⟨first, rest⟩
  case entry => exact fun _ _ _ _ first rest => List.forall_mem_cons.mpr ⟨first, rest⟩
  all_goals exact scalar _ (by simp) (by simp)

/-! ## What a value equals -/

/-- A value equals another one if that has its form and the parts are equal. Only numbers may be of
two kinds. -/
theorem equal_iff : a.equal b = true ↔
    match a with
    | nil => b = nil
    | bool p => b = bool p
    | int n => b = int n ∨ ∃ x, b = float x ∧ sameNumber n x = true
    | float x => (∃ y, b = float y ∧ x.equal y = true) ∨ ∃ n, b = int n ∧ sameNumber n x = true
    | str s => b = str s
    | list as => ∃ bs, b = list bs ∧ equalItems as bs = true
    | map es => ∃ fs, b = map fs ∧ equalEntries es fs = true
    | function f => b = function f := by
  cases a with
  | nil | list as | map es | float x => cases b <;> simp [equal]
  | bool p | int p | str p | function p => cases b <;> simp [equal, eq_comm (a := p)]

theorem equalItems_cons_iff : equalItems (a :: as) bs = true ↔
    ∃ b rest, bs = b :: rest ∧ a.equal b = true ∧ equalItems as rest = true := by
  cases bs with
  | nil => simp [equalItems]
  | cons b rest =>
      simp only [equalItems, Bool.and_eq_true, List.cons.injEq]
      constructor
      · exact fun h => ⟨b, rest, ⟨rfl, rfl⟩, h⟩
      · rintro ⟨_, _, ⟨rfl, rfl⟩, h⟩
        exact h

/-- Maps are equal if they have the same keys and the lists of their values are equal. -/
theorem equalEntries_iff {low high : Option String} {es : Dictionary Value low}
    {fs : Dictionary Value high} :
    equalEntries es fs = true ↔ es.keys = fs.keys ∧ equalItems es.values fs.values = true := by
  induction es generalizing high with
  | nil =>
      cases fs <;> simp [equalEntries, equalItems, Dictionary.keys, Dictionary.values,
        Dictionary.toList]
  | cons k _ a es ih =>
      cases fs with
      | nil => simp [equalEntries, Dictionary.keys, Dictionary.toList]
      | cons l _ b fs =>
          simp only [equalEntries, Bool.and_eq_true, beq_iff_eq, ih, Dictionary.keys,
            Dictionary.values, Dictionary.toList, List.map_cons, List.cons.injEq, equalItems]
          exact and_and_and_comm

theorem equal_getElem? (h : equalItems as bs = true) {i : Nat} (ha : as[i]? = some a)
    (hb : bs[i]? = some b) : a.equal b = true := by
  induction as generalizing bs i with
  | nil => cases ha
  | cons first as ih =>
      obtain ⟨first', bs, rfl, equal, rest⟩ := equalItems_cons_iff.mp h
      cases i with
      | zero =>
          cases ha
          cases hb
          exact equal
      | succ i => exact ih rest ha hb

theorem getElem?_values {i : Nat} {e : String × Value} (he : es.toList[i]? = some e) :
    es.values[i]? = some e.2 := by
  rw [Dictionary.values, List.getElem?_map, he]
  rfl

/-! ## Clashes -/

theorem clash_list_cons_iff : Clash (list (a :: as)) (list (b :: bs)) (list (c :: cs)) ↔
    Clash a b c ∨ Clash (list as) (list bs) (list cs) := by
  constructor
  · intro h
    cases h with
    | @item _ _ _ i _ _ _ ha hb hc clash =>
        cases i with
        | zero =>
            cases ha
            cases hb
            cases hc
            exact Or.inl clash
        | succ i => exact Or.inr (.item ha hb hc clash)
  · rintro (clash | h)
    · exact .item (i := 0) rfl rfl rfl clash
    · cases h with
      | @item _ _ _ i _ _ _ ha hb hc clash => exact .item (i := i + 1) ha hb hc clash

/-- Maps clash where the lists of their values do. -/
theorem clash_map_iff :
    Clash (map es) (map fs) (map gs) ↔ Clash (list es.values) (list fs.values) (list gs.values) := by
  constructor
  · intro h
    cases h with
    | entry he hf hg clash =>
        exact .item (getElem?_values he) (getElem?_values hf) (getElem?_values hg) clash
  · intro h
    cases h with
    | item ha hb hc clash =>
        simp only [Dictionary.values, List.getElem?_map, Option.map_eq_some_iff] at ha hb hc
        obtain ⟨e, he, rfl⟩ := ha
        obtain ⟨f, hf, rfl⟩ := hb
        obtain ⟨g, hg, rfl⟩ := hc
        exact .entry he hf hg clash

/-- Different integers that equal the same float are at least 2^53 in size. -/
theorem large_of_sameNumber {n m : Int64} {x : Double} (apart : n ≠ m)
    (hn : sameNumber n x = true) (hm : sameNumber m x = true) :
    2 ^ 53 ≤ n.toInt.natAbs ∧ 2 ^ 53 ≤ m.toInt.natAbs := by
  constructor
  · refine Nat.le_of_not_lt fun small => apart (Int64.toInt_inj.mp ?_)
    exact Double.eq_of_equal_ofInt small hn hm
  · refine Nat.le_of_not_lt fun small => apart (Int64.toInt_inj.mp ?_)
    exact (Double.eq_of_equal_ofInt small hm hn).symm

/-- Integers that clash are at least 2^53 in size. -/
theorem Clash.large (clash : Clash a b c) (ab : a.equal b = true) (bc : b.equal c = true) :
    ∃ n m, a.HoldsInt n ∧ c.HoldsInt m ∧ n ≠ m ∧ 2 ^ 53 ≤ n.toInt.natAbs ∧
      2 ^ 53 ≤ m.toInt.natAbs := by
  induction clash with
  | @number n m x apart =>
      exact ⟨n, m, .int n, .int m, apart, large_of_sameNumber apart ab bc⟩
  | item ha hb hc _ ih =>
      obtain ⟨n, m, hn, hm, large⟩ := ih (equal_getElem? ab ha hb) (equal_getElem? bc hb hc)
      exact ⟨n, m, .item (List.mem_of_getElem? ha) hn, .item (List.mem_of_getElem? hc) hm, large⟩
  | entry he hf hg _ ih =>
      obtain ⟨n, m, hn, hm, large⟩ :=
        ih (equal_getElem? (equalEntries_iff.mp ab).2 (getElem?_values he) (getElem?_values hf))
          (equal_getElem? (equalEntries_iff.mp bc).2 (getElem?_values hf) (getElem?_values hg))
      exact ⟨n, m, .entry (List.mem_of_getElem? he) hn, .entry (List.mem_of_getElem? hg) hm, large⟩

/-! ## Transitivity -/

/-- Numbers that equal the same number equal each other unless they clash. -/
theorem equal_int_iff_not_clash {n : Int64} (ab : (int n).equal b = true) (bc : b.equal c = true) :
    (int n).equal c = true ↔ ¬ Clash (int n) b c := by
  rcases equal_iff.mp ab with rfl | ⟨x, rfl, same⟩
  · exact iff_of_true bc fun clash => by cases clash
  · rcases equal_iff.mp bc with ⟨y, rfl, equal⟩ | ⟨m, rfl, same'⟩
    · exact iff_of_true (Double.equal_trans same equal) fun clash => by cases clash
    · constructor
      · intro equal clash
        cases clash with
        | number apart => exact apart (by simpa [Value.equal] using equal)
      · intro none
        by_cases apart : n = m
        · simp [Value.equal, apart]
        · exact absurd (.number apart) none

theorem equal_float_trans {x : Double} (ab : (float x).equal b = true) (bc : b.equal c = true) :
    (float x).equal c = true := by
  rcases equal_iff.mp ab with ⟨y, rfl, equal⟩ | ⟨n, rfl, same⟩
  · rcases equal_iff.mp bc with ⟨z, rfl, equal'⟩ | ⟨m, rfl, same'⟩
    · exact equal_iff.mpr (Or.inl ⟨z, rfl, Double.equal_trans equal equal'⟩)
    · refine equal_iff.mpr (Or.inr ⟨m, rfl, ?_⟩)
      exact Double.equal_trans same' (Double.equal_symm equal)
  · rcases equal_iff.mp bc with rfl | ⟨z, rfl, same'⟩
    · exact ab
    · refine equal_iff.mpr (Or.inl ⟨z, rfl, ?_⟩)
      exact Double.equal_trans (Double.equal_symm same) same'

theorem equalItems_iff_of_equal
    (parts : ∀ a ∈ as, ∀ {b c : Value}, a.equal b = true → b.equal c = true →
      (a.equal c = true ↔ ¬ Clash a b c))
    (ab : equalItems as bs = true) (bc : equalItems bs cs = true) :
    equalItems as cs = true ↔ ¬ Clash (list as) (list bs) (list cs) := by
  induction as generalizing bs cs with
  | nil =>
      cases bs with
      | nil =>
          refine iff_of_true bc fun clash => ?_
          cases clash with
          | item ha => cases ha
      | cons b bs => cases ab
  | cons a as ih =>
      obtain ⟨b, bs, rfl, equal, items⟩ := equalItems_cons_iff.mp ab
      obtain ⟨c, cs, rfl, equal', items'⟩ := equalItems_cons_iff.mp bc
      obtain ⟨first, rest⟩ := List.forall_mem_cons.mp parts
      rw [clash_list_cons_iff, not_or, ← first equal equal', ← ih rest items items', equalItems,
        Bool.and_eq_true]

theorem equal_iff_of_equal (a : Value) {b c : Value} (ab : a.equal b = true)
    (bc : b.equal c = true) : a.equal c = true ↔ ¬ Clash a b c := by
  induction a using induction generalizing b c with
  | list as ih =>
      obtain ⟨bs, rfl, items⟩ := equal_iff.mp ab
      obtain ⟨cs, rfl, items'⟩ := equal_iff.mp bc
      exact equalItems_iff_of_equal ih items items'
  | map es ih =>
      obtain ⟨fs, rfl, entries⟩ := equal_iff.mp ab
      obtain ⟨gs, rfl, entries'⟩ := equal_iff.mp bc
      obtain ⟨keys, values⟩ := equalEntries_iff.mp entries
      obtain ⟨keys', values'⟩ := equalEntries_iff.mp entries'
      rw [equal, equalEntries_iff, and_iff_right (keys.trans keys'), clash_map_iff]
      exact equalItems_iff_of_equal ih values values'
  | scalar a notList notMap =>
      match a with
      | int n => exact equal_int_iff_not_clash ab bc
      | float x => exact iff_of_true (equal_float_trans ab bc) fun clash => by cases clash
      | list as => exact absurd rfl (notList as)
      | map es => exact absurd rfl (notMap es)
      -- any other value only equals itself
      | nil | bool _ | str _ | function _ =>
          obtain rfl := equal_iff.mp ab
          exact iff_of_true bc fun clash => by cases clash

/-- **The equality of scripts is transitive but for integers that share a float.** If a value equals
a second one and that a third one then the first equals the third exactly if they have no different
integers at a place where the second has a float. Where they have, both integers are at least 2^53
in size. -/
theorem equal_iff_not_clash {a b c : Value} (ab : a.equal b = true) (bc : b.equal c = true) :
    (a.equal c = true ↔ ¬ Clash a b c) ∧
      (Clash a b c → ∃ n m, a.HoldsInt n ∧ c.HoldsInt m ∧ n ≠ m ∧ 2 ^ 53 ≤ n.toInt.natAbs ∧
        2 ^ 53 ≤ m.toInt.natAbs) :=
  ⟨equal_iff_of_equal a ab bc, fun clash => clash.large ab bc⟩

/-- Small integers next to floats, inside of a list. -/
theorem equal_iff_not_clash_small :
    let whole : Double := ⟨0x4008000000000000⟩
    let half : Double := ⟨0x3fe0000000000000⟩
    let a := list [int 3, map (.ofEntries [("k", float half)])]
    let b := list [float whole, map (.ofEntries [("k", float half)])]
    a.equal b = true ∧ b.equal a = true ∧ a.equal a = true ∧ ¬ Clash a b a := by
  intro whole half a b
  have ab : a.equal b = true := by decide +kernel
  have ba : b.equal a = true := by decide +kernel
  have aa : a.equal a = true := by decide +kernel
  exact ⟨ab, ba, aa, (equal_iff_not_clash ab ba).1.mp aa⟩

/-- Two integers that equal the same float, which is no NaN, and do not equal each other. -/
theorem not_equal_trans :
    let x : Double := ⟨0x4340000000000000⟩
    x.isNaN = false ∧ (int 9007199254740992).equal (float x) = true ∧
      (float x).equal (int 9007199254740993) = true ∧
      (int 9007199254740992).equal (int 9007199254740993) = false := by
  decide +kernel

end Value

end StatementEngine
