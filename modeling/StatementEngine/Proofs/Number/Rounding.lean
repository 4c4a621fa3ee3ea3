import Mathlib.Algebra.Group.Nat.Defs
import StatementEngine.Number.Double

/-!
# Rounding whole numbers

**Whole numbers below 2^53 are doubles themselves; further on, neighbours share one.** The double
nearest to a whole number has its sign, and below the sign bits that depend on its size alone
(`encoded`, `ofInt_eq`). Up to 52 places after the leading one all of them fit into the fraction and
nothing is rounded. Beyond that the exponent alone tells the result from that of any smaller number.
So a number below 2^53 has its double to itself (`ofInt_injective`).
-/

namespace StatementEngine.Double

/-- The bits below the sign of the double nearest to a whole number of the given size. -/
def encoded (m : Nat) : Nat :=
  if m = 0 then 0
  else if m.log2 ≤ 52 then (m.log2 + 1022) * 2 ^ 52 + m * 2 ^ (52 - m.log2)
  else min ((m.log2 + 1022) * 2 ^ 52 + divideToEven m (2 ^ (m.log2 - 52))) infinityMagnitude

variable {m k : Nat}

/-! ## The size -/

/-- Shifted so that its leading bit is the leading bit of a fraction, a number is at least 2^52 and
less than 2^53. -/
theorem shifted_bounds (pos : m ≠ 0) (fits : m.log2 ≤ 52) :
    2 ^ 52 ≤ m * 2 ^ (52 - m.log2) ∧ m * 2 ^ (52 - m.log2) < 2 ^ 53 := by
  constructor
  · calc 2 ^ 52 = 2 ^ m.log2 * 2 ^ (52 - m.log2) := by rw [← Nat.pow_add, Nat.add_sub_cancel' fits]
      _ ≤ m * 2 ^ (52 - m.log2) := Nat.mul_le_mul_right _ (Nat.log2_self_le pos)
  · calc m * 2 ^ (52 - m.log2) < 2 ^ (m.log2 + 1) * 2 ^ (52 - m.log2) :=
          Nat.mul_lt_mul_of_pos_right Nat.lt_log2_self (Nat.two_pow_pos _)
      _ = 2 ^ 53 := by rw [← Nat.pow_add]; congr 1; omega

theorem div_le_divideToEven (n d : Nat) : n / d ≤ divideToEven n d := by
  simp only [divideToEven]
  split
  · exact Nat.le_refl _
  · split
    · exact Nat.le_succ _
    · split
      · exact Nat.le_refl _
      · exact Nat.le_succ _

/-- A rounded number keeps its leading bit. -/
theorem le_divideToEven_of_log2 (large : 52 < m.log2) :
    2 ^ 52 ≤ divideToEven m (2 ^ (m.log2 - 52)) := by
  have pos : m ≠ 0 := by
    rintro rfl
    simp at large
  refine Nat.le_trans ?_ (div_le_divideToEven m _)
  rw [Nat.le_div_iff_mul_le (Nat.two_pow_pos _), ← Nat.pow_add, Nat.add_sub_cancel' (by omega)]
  exact Nat.log2_self_le pos

theorem encoded_zero : encoded 0 = 0 := rfl

theorem encoded_of_fits (pos : m ≠ 0) (fits : m.log2 ≤ 52) :
    encoded m = (m.log2 + 1022) * 2 ^ 52 + m * 2 ^ (52 - m.log2) := by
  rw [encoded, if_neg pos, if_pos fits]

theorem encoded_lt (fits : m < 2 ^ 53) : encoded m < 1076 * 2 ^ 52 := by
  by_cases pos : m = 0
  · rw [pos, encoded_zero]
    decide
  · have leading : m.log2 ≤ 52 := Nat.le_of_lt_succ ((Nat.log2_lt pos).mpr fits)
    have bounds := shifted_bounds pos leading
    rw [encoded_of_fits pos leading]
    omega

theorem le_encoded_of_large (large : 52 < m.log2) : 1076 * 2 ^ 52 ≤ encoded m := by
  have pos : m ≠ 0 := by
    rintro rfl
    simp at large
  have rounded := le_divideToEven_of_log2 large
  rw [encoded, if_neg pos, if_neg (by omega)]
  refine Nat.le_min.mpr ⟨by omega, ?_⟩
  simp only [infinityMagnitude, pow2, Nat.pow_eq]
  omega

theorem encoded_pos (pos : m ≠ 0) : 0 < encoded m := by
  by_cases fits : m.log2 ≤ 52
  · have bounds := shifted_bounds pos fits
    rw [encoded_of_fits pos fits]
    omega
  · have := le_encoded_of_large (Nat.lt_of_not_le fits)
    omega

/-- A number below 2^53 is known from its bits. -/
theorem encoded_injective (fits : m < 2 ^ 53) (same : encoded m = encoded k) : m = k := by
  by_cases zero : m = 0
  · subst zero
    by_cases zero' : k = 0
    · exact zero'.symm
    · have := encoded_pos zero'
      rw [encoded_zero] at same
      omega
  · have leading : m.log2 ≤ 52 := Nat.le_of_lt_succ ((Nat.log2_lt zero).mpr fits)
    by_cases leading' : k.log2 ≤ 52
    · have zero' : k ≠ 0 := by
        rintro rfl
        exact absurd same (Nat.ne_of_gt (encoded_pos zero))
      -- the leading bits stand at the same place, so the fractions are the same as well
      have bounds := shifted_bounds zero leading
      have bounds' := shifted_bounds zero' leading'
      rw [encoded_of_fits zero leading, encoded_of_fits zero' leading'] at same
      have log2 : m.log2 = k.log2 := by omega
      have shifted : m * 2 ^ (52 - m.log2) = k * 2 ^ (52 - m.log2) := by
        rw [← log2] at same
        omega
      exact Nat.eq_of_mul_eq_mul_right (Nat.two_pow_pos _) shifted
    · have less := encoded_lt fits
      have more := le_encoded_of_large (Nat.lt_of_not_le leading')
      omega

theorem encoded_le (m : Nat) : encoded m ≤ infinityMagnitude := by
  have infinity : infinityMagnitude = 2047 * 2 ^ 52 := rfl
  unfold encoded
  split
  · exact Nat.zero_le _
  · next pos =>
    split
    · next fits =>
      have bounds := shifted_bounds pos fits
      omega
    · exact Nat.min_le_right _ _

/-! ## The double -/

/-- The double nearest to a whole number has the sign of the number and the bits of its size. -/
theorem ofInt_eq (n : Int) : ofInt n = ofSignMagnitude (n < 0) (encoded n.natAbs) := by
  generalize size : n.natAbs = m
  unfold ofInt ofScaled
  rw [size]
  by_cases zero : m = 0
  · rw [if_pos zero, zero, encoded_zero]
  · rw [if_neg zero]
    by_cases fits : m.log2 ≤ 52
    · have bound := encoded_le m
      have spacing : max (0 + (m.log2 : Int) - 52) (-1074) = (m.log2 : Int) - 52 := by omega
      have places : (0 - ((m.log2 : Int) - 52)).toNat = 52 - m.log2 := by omega
      have exponent : ((m.log2 : Int) - 52 + 1074).toNat = m.log2 + 1022 := by omega
      rw [encoded_of_fits zero fits] at bound ⊢
      simp only [spacing, if_pos (show (m.log2 : Int) - 52 ≤ 0 by omega), places, exponent]
      exact congrArg _ (Nat.min_eq_left bound)
    · have spacing : max (0 + (m.log2 : Int) - 52) (-1074) = (m.log2 : Int) - 52 := by omega
      have places : ((m.log2 : Int) - 52 - 0).toNat = m.log2 - 52 := by omega
      have exponent : ((m.log2 : Int) - 52 + 1074).toNat = m.log2 + 1022 := by omega
      rw [encoded, if_neg zero, if_neg fits]
      simp only [spacing, if_neg (show ¬ (m.log2 : Int) - 52 ≤ 0 by omega), places, exponent]
      rfl

variable {a b : Nat}

theorem bits_ofSignMagnitude (negative : Bool) (h : a ≤ infinityMagnitude) :
    (ofSignMagnitude negative a).bits.toNat = (if negative then 2 ^ 63 else 0) + a := by
  have infinity : infinityMagnitude = 2047 * 2 ^ 52 := rfl
  simp only [ofSignMagnitude, pow2, Nat.pow_eq, UInt64.toNat_ofNat']
  refine Nat.mod_eq_of_lt ?_
  split <;> omega

theorem ofSignMagnitude_injective {p q : Bool} (ha : a ≤ infinityMagnitude)
    (hb : b ≤ infinityMagnitude) (same : ofSignMagnitude p a = ofSignMagnitude q b) :
    p = q ∧ a = b := by
  have infinity : infinityMagnitude = 2047 * 2 ^ 52 := rfl
  have bits := congrArg (·.bits.toNat) same
  simp only [bits_ofSignMagnitude _ ha, bits_ofSignMagnitude _ hb] at bits
  cases p <;> cases q <;> simp_all <;> omega

/-- Only zero is rounded to a zero. -/
theorem eq_zero_of_isZero_ofInt {n : Int} (h : (ofInt n).isZero = true) : n = 0 := by
  have bound := encoded_le n.natAbs
  have infinity : infinityMagnitude = 2047 * 2 ^ 52 := rfl
  have none : encoded n.natAbs = 0 := by
    simp only [isZero, exponentField, fraction, ofInt_eq, bits_ofSignMagnitude _ bound, pow2,
      Nat.pow_eq, Bool.and_eq_true, beq_iff_eq] at h
    split at h <;> omega
  by_cases zero : n.natAbs = 0
  · exact Int.natAbs_eq_zero.mp zero
  · exact absurd none (Nat.ne_of_gt (encoded_pos zero))

/-- A whole number below 2^53 has its double to itself. -/
theorem ofInt_injective {n m : Int} (small : n.natAbs < 2 ^ 53) (same : ofInt n = ofInt m) :
    n = m := by
  rw [ofInt_eq, ofInt_eq] at same
  obtain ⟨sign, size⟩ := ofSignMagnitude_injective (encoded_le _) (encoded_le _) same
  have size := encoded_injective small size
  have sign : n < 0 ↔ m < 0 := by simpa using sign
  omega

/-- Further on, neighbours share one. -/
example : ofInt (2 ^ 53 + 1) = ofInt (2 ^ 53) := by decide +kernel

/-- Two whole numbers that equal the same double are the same if one is below 2^53. -/
theorem eq_of_equal_ofInt {n m : Int} {x : Double} (small : n.natAbs < 2 ^ 53)
    (hn : (ofInt n).equal x = true) (hm : (ofInt m).equal x = true) : n = m := by
  simp only [equal, Bool.and_eq_true, Bool.or_eq_true, beq_iff_eq] at hn hm
  rcases hn.2 with hn | ⟨hn, zero⟩
  · rcases hm.2 with hm | ⟨hm, zero⟩
    · exact ofInt_injective small (hn.trans hm.symm)
    · have zero' : (ofInt n).isZero = true := (congrArg isZero hn).trans zero
      rw [eq_zero_of_isZero_ofInt hm, eq_zero_of_isZero_ofInt zero']
  · rcases hm.2 with hm | ⟨hm, -⟩
    · have zero' : (ofInt m).isZero = true := (congrArg isZero hm).trans zero
      rw [eq_zero_of_isZero_ofInt hn, eq_zero_of_isZero_ofInt zero']
    · rw [eq_zero_of_isZero_ofInt hn, eq_zero_of_isZero_ofInt hm]

end StatementEngine.Double
