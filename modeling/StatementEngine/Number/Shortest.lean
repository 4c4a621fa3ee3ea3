import StatementEngine.Number.Double

/-!
# Shortest decimals

**The fewest digits that read back.** A positive finite double stands for an interval of reals:
all those that round to it. Among the decimals in that interval the shortest one is wanted, and
among equally short ones the one nearest to the double itself.

* `Double.Interval` holds the double and the two ends of its interval over one denominator.
* `Interval.nearby` looks at one decimal grid. If any point of the grid lies in the interval then
  so does one of the two grid points around the double, so only those two are tried.
* `Double.shortest` takes the coarsest grid that has a point in the interval. Seventeen digits
  always suffice.
-/

namespace StatementEngine

/-- A positive decimal `digits · 10^exponent`. -/
structure Decimal where
  digits : Nat
  exponent : Int
  deriving DecidableEq

namespace Double

/-- A positive double with the reals that round to it: `low`, `value` and `high` are numerators
over `unit`. The ends belong to the interval when `closed`. -/
structure Interval where
  low : Nat
  value : Nat
  high : Nat
  unit : Nat
  closed : Bool

/-- The interval of a positive finite double. Its neighbours are half a spacing away on either
side, except that below a power of two the spacing is half as wide. -/
def interval (x : Double) : Interval :=
  let (m, e) := x.parts
  let lowWidth := if x.fraction = 0 && 1 < x.exponentField then 1 else 2
  let scale := pow2 (e - 2).toNat
  { low := (4 * m - lowWidth) * scale
    value := 4 * m * scale
    high := (4 * m + 2) * scale
    unit := pow2 (2 - e).toNat
    closed := m % 2 = 0 }

namespace Interval

/-- The interval over a grid: numerators of `low`, `value` and `high` counted in steps of
`10^exponent`, and their denominator. -/
def onGrid (i : Interval) (exponent : Int) : Interval :=
  let up := pow10 (-exponent).toNat
  { i with
    low := i.low * up
    value := i.value * up
    high := i.high * up
    unit := i.unit * pow10 exponent.toNat }

/-- Whether `n` steps of the grid lie in the interval. -/
def contains (i : Interval) (n : Nat) : Bool :=
  let p := n * i.unit
  if i.closed then i.low ≤ p && p ≤ i.high else i.low < p && p < i.high

/-- The grid point in the interval that is nearest to the value; of two equally near ones the
larger. -/
def nearby (i : Interval) : Option Nat :=
  let below := i.value / i.unit
  let above := below + 1
  match i.contains below, i.contains above with
  | true, true => if 2 * (i.value % i.unit) < i.unit then some below else some above
  | true, false => some below
  | false, true => some above
  | false, false => none

/-- The exponent of the leading decimal digit. Its estimate from the binary logarithm is at most
two too small. -/
def decimalExponent (i : Interval) : Int :=
  let reaches (k : Int) : Bool := i.unit * pow10 k.toNat ≤ i.value * pow10 (-k).toNat
  let estimate : Int := ((i.value.log2 : Int) - i.unit.log2 - 1) * 30103 / 100000
  if reaches (estimate + 2) then estimate + 2
  else if reaches (estimate + 1) then estimate + 1
  else estimate

/-- Tries grids of more and more digits, the leading digit standing at `leading`. -/
def search (i : Interval) (leading : Int) : Nat → Nat → Decimal
  | 0, digits =>
    let exponent := leading - digits
    ⟨(i.onGrid exponent).value / (i.onGrid exponent).unit, exponent⟩
  | tries + 1, digits =>
    let exponent := leading - digits
    match (i.onGrid exponent).nearby with
    | some n => ⟨n, exponent⟩
    | none => search i leading tries (digits + 1)

end Interval

/-- The shortest decimal that reads back as a positive finite double, and of the shortest ones the
nearest. -/
def shortest (x : Double) : Decimal :=
  let i := x.interval
  i.search i.decimalExponent 17 0

end Double

end StatementEngine
