import StatementEngine.Number.Shortest

/-!
# The shortest decimal reads back

**The decimal of a double lies in the interval of the double, and no shorter one does.** On each
decimal grid only the two points around the double are looked at. That is enough: if any point of the
grid lies in the interval then so does one of these two (`contains_neighbour`). Grids are tried from the
coarsest on, so on all grids that are coarser than that of the decimal no point lies in the interval.

Nothing is proved here about the last grid, on which the digits are cut off if none of the others has
had a point.

The main result is `shortest_reads_back`.
-/

namespace StatementEngine.Double

namespace Interval

variable {i : Interval} {n : Nat}

/-! ## One grid -/

theorem contains_iff : i.contains n = true ↔
    if i.closed then i.low ≤ n * i.unit ∧ n * i.unit ≤ i.high
    else i.low < n * i.unit ∧ n * i.unit < i.high := by
  rw [contains]
  split <;> simp

/-- A point that is found lies in the interval. -/
theorem contains_of_nearby (h : i.nearby = some n) : i.contains n = true := by
  simp only [nearby] at h
  cases below : i.contains (i.value / i.unit) <;>
    cases above : i.contains (i.value / i.unit + 1) <;> grind

theorem nearby_eq_none_iff : i.nearby = none ↔
    ¬ (i.contains (i.value / i.unit) = true ∨ i.contains (i.value / i.unit + 1) = true) := by
  simp only [nearby]
  cases i.contains (i.value / i.unit) <;> cases i.contains (i.value / i.unit + 1) <;> grind

/-- If a point of the grid lies in the interval then so does one of the two around the value. -/
theorem contains_neighbour (low : i.low ≤ i.value) (high : i.value < i.high) (unit : 0 < i.unit)
    (h : i.contains n = true) :
    i.contains (i.value / i.unit) = true ∨ i.contains (i.value / i.unit + 1) = true := by
  have floor : i.value / i.unit * i.unit ≤ i.value := Nat.div_mul_le_self _ _
  have ceil : i.value < (i.value / i.unit + 1) * i.unit := by
    rw [Nat.mul_comm]
    exact Nat.lt_mul_div_succ _ unit
  -- one of the two is between the point and the value
  have nearer : n * i.unit ≤ i.value / i.unit * i.unit ∨
      (i.value / i.unit + 1) * i.unit ≤ n * i.unit := by
    rcases Nat.lt_or_ge (i.value / i.unit) n with after | before
    · exact Or.inr (Nat.mul_le_mul_right _ after)
    · exact Or.inl (Nat.mul_le_mul_right _ before)
  by_cases closed : i.closed = true
  · simp only [contains_iff, if_pos closed] at h ⊢
    omega
  · simp only [contains_iff, if_neg closed] at h ⊢
    omega

/-! ## All grids -/

/-- The search ends on the first grid on which a point is found, or on the last one. -/
theorem search_spec (i : Interval) (leading : Int) (tries digits : Nat) :
    ∃ k ≤ tries, (i.search leading tries digits).exponent = leading - (digits + k : Nat) ∧
      (∀ j < k, (i.onGrid (leading - (digits + j : Nat))).nearby = none) ∧
      (k < tries → (i.onGrid (leading - (digits + k : Nat))).nearby
        = some (i.search leading tries digits).digits) := by
  induction tries generalizing digits with
  | zero => exact ⟨0, Nat.le_refl 0, rfl, by simp, by simp⟩
  | succ tries ih =>
      rw [search]
      cases found : (i.onGrid (leading - digits)).nearby with
      | some n => exact ⟨0, Nat.zero_le _, rfl, by simp, fun _ => found⟩
      | none =>
          obtain ⟨k, le, exponent, coarser, reads⟩ := ih (digits + 1)
          have later (j : Nat) : digits + 1 + j = digits + (j + 1) := by omega
          simp only [later] at exponent coarser reads
          refine ⟨k + 1, by omega, exponent, fun j less => ?_, fun less => reads (by omega)⟩
          cases j with
          | zero => exact found
          | succ j => exact coarser j (by omega)

end Interval

/-! ## The decimal -/

/-- On every grid the interval of a double is around the double. -/
theorem onGrid_bounds (x : Double) (exponent : Int) :
    let i := x.interval.onGrid exponent
    i.low ≤ i.value ∧ i.value < i.high ∧ 0 < i.unit := by
  intro i
  have scale (n : Nat) : 0 < pow2 n := Nat.two_pow_pos n
  have up (n : Nat) : 0 < pow10 n := Nat.pow_pos (by decide)
  refine ⟨?_, ?_, Nat.mul_pos (scale _) (up _)⟩
  · refine Nat.mul_le_mul_right _ (Nat.mul_le_mul_right _ ?_)
    exact Nat.sub_le _ _
  · refine Nat.mul_lt_mul_of_pos_right (Nat.mul_lt_mul_of_pos_right ?_ (scale _)) (up _)
    exact Nat.lt_add_of_pos_right (by decide)

/-- **The shortest decimal reads back.** No point of a coarser grid lies in the interval of the
double. The decimal itself does, unless it has been cut off on the last grid. -/
theorem shortest_reads_back (x : Double) :
    let i := x.interval
    (∀ exponent, x.shortest.exponent < exponent → exponent ≤ i.decimalExponent →
      ∀ n, (i.onGrid exponent).contains n = false) ∧
    (i.decimalExponent - 17 < x.shortest.exponent →
      (i.onGrid x.shortest.exponent).contains x.shortest.digits = true) := by
  intro i
  obtain ⟨k, le, exponent, coarser, reads⟩ := i.search_spec i.decimalExponent 17 0
  have decimal : i.search i.decimalExponent 17 0 = x.shortest := rfl
  rw [decimal] at exponent reads
  simp only [Nat.zero_add] at exponent coarser reads
  refine ⟨fun e finer coarse n => ?_, fun found => ?_⟩
  · obtain ⟨low, high, unit⟩ := onGrid_bounds x e
    have none : (i.onGrid e).nearby = none := by
      have grid := coarser (i.decimalExponent - e).toNat (by omega)
      rwa [show i.decimalExponent - ((i.decimalExponent - e).toNat : Int) = e by omega] at grid
    refine Bool.eq_false_iff.mpr fun inside => ?_
    exact Interval.nearby_eq_none_iff.mp none (Interval.contains_neighbour low high unit inside)
  · rw [exponent]
    exact Interval.contains_of_nearby (reads (by omega))

/-- One tenth has a digit, although it is rounded. -/
example : shortest ⟨0x3fb999999999999a⟩ = ⟨1, -1⟩ := by decide +kernel

end StatementEngine.Double
