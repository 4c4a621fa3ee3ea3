/-!
# Doubles

**A double is its 64 bits**, read as IEEE 754 says: a sign, eleven bits of exponent, fifty-two of
fraction. Everything here is computed on whole numbers, so that statements about rounding and
about equality are statements of arithmetic.

* `Double.parts` reads a finite double as `m · 2^e`.
* `Double.ofScaled` rounds `m · 2^e` to the nearest double, a tie to the even one; `ofInt` and
  `add` are that rounding applied to an exact result.
* `Double.equal` is the comparison of numbers: the two zeros agree and no NaN equals anything.
-/

namespace StatementEngine

/-- A double-precision number, given by its bits. -/
structure Double where
  bits : UInt64
  deriving DecidableEq, Inhabited

/-- A power of two. -/
def pow2 (n : Nat) : Nat := Nat.pow 2 n

/-- A power of ten. -/
def pow10 (n : Nat) : Nat := Nat.pow 10 n

namespace Double

/-- The biased exponent. -/
def exponentField (x : Double) : Nat := (x.bits.toNat / pow2 52) % pow2 11

/-- The fraction without its leading bit. -/
def fraction (x : Double) : Nat := x.bits.toNat % pow2 52

/-- The sign bit is set. -/
def negative (x : Double) : Bool := pow2 63 ≤ x.bits.toNat

def isNaN (x : Double) : Bool := x.exponentField == 2047 && x.fraction != 0

def isInfinite (x : Double) : Bool := x.exponentField == 2047 && x.fraction == 0

def isZero (x : Double) : Bool := x.exponentField == 0 && x.fraction == 0

/-- The one NaN that is ever produced. -/
def nan : Double := ⟨0x7ff8000000000000⟩

/-- The double with the given sign whose other bits, read as a number, are `magnitude`. -/
def ofSignMagnitude (negative : Bool) (magnitude : Nat) : Double :=
  ⟨UInt64.ofNat ((if negative then pow2 63 else 0) + magnitude)⟩

/-- The magnitude bits of an infinity. -/
def infinityMagnitude : Nat := 2047 * pow2 52

/-- The double with these bits, every NaN being the same one. -/
def ofBits (bits : UInt64) : Double :=
  let x : Double := ⟨bits⟩
  if x.isNaN then nan else x

/-- The size of a finite double as `m · 2^e`. -/
def parts (x : Double) : Nat × Int :=
  if x.exponentField = 0 then (x.fraction, -1074)
  else (pow2 52 + x.fraction, (x.exponentField : Int) - 1075)

/-- `n / d` rounded to the nearest whole number, a tie to the even one. -/
def divideToEven (n d : Nat) : Nat :=
  let q := n / d
  let r := n % d
  if 2 * r < d then q
  else if d < 2 * r then q + 1
  else if q % 2 = 0 then q else q + 1

/-- The double nearest to `± m · 2^e`, a tie going to the even one. The spacing of doubles around
a number follows from where its leading bit stands; a carry out of the fraction moves into the
exponent by itself. -/
def ofScaled (negative : Bool) (m : Nat) (e : Int) : Double :=
  if m = 0 then ofSignMagnitude negative 0
  else
    let spacing : Int := max (e + m.log2 - 52) (-1074)
    let rounded :=
      if spacing ≤ e then m * pow2 (e - spacing).toNat
      else divideToEven m (pow2 (spacing - e).toNat)
    let magnitude := (spacing + 1074).toNat * pow2 52 + rounded
    ofSignMagnitude negative (min magnitude infinityMagnitude)

/-- The double nearest to a whole number. -/
def ofInt (n : Int) : Double := ofScaled (n < 0) n.natAbs 0

/-- Numeric equality: the zeros are one number and a NaN is none. -/
def equal (x y : Double) : Bool :=
  !x.isNaN && !y.isNaN && (x == y || (x.isZero && y.isZero))

/-- The exact sum rounded once. A sum that cancels is the positive zero; only two negative zeros
add up to a negative one. -/
def add (x y : Double) : Double :=
  if x.isNaN || y.isNaN then nan
  else if x.isInfinite then
    if y.isInfinite && x.negative != y.negative then nan else x
  else if y.isInfinite then y
  else
    let (mx, ex) := x.parts
    let (my, ey) := y.parts
    let e := min ex ey
    let signed (negative : Bool) (m : Nat) : Int := if negative then -(m : Int) else m
    let sum := signed x.negative (mx * pow2 (ex - e).toNat)
      + signed y.negative (my * pow2 (ey - e).toNat)
    if sum = 0 then ofSignMagnitude (x.negative && y.negative) 0
    else ofScaled (sum < 0) sum.natAbs e

end Double

end StatementEngine
