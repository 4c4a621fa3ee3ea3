import StatementEngine.Number.Shortest

/-!
# How numbers are written

**Digits are one matter, their layout another.** `Double.shortest` chooses the digits;
a `NumberLayout` says where the point goes, when an exponent is written instead, and whether a
whole number shows that it is a double.

The engine has two layouts: `NumberLayout.plain` for the text that a script's user sees, and
`NumberLayout.explicit` for the form that shows a value's kind.
-/

namespace StatementEngine

/-- How a double is laid out once its digits are known. -/
structure NumberLayout where
  /-- What follows a whole number written without an exponent. -/
  wholeSuffix : String
  /-- Leading-digit positions written without an exponent; absent ends are open. -/
  positionalFrom : Option Int
  positionalBelow : Option Int

namespace NumberLayout

/-- Never an exponent, and nothing after a whole number. -/
def plain : NumberLayout := ⟨"", none, none⟩

/-- Whole numbers keep `.0`; sizes from `10^16` on and below `10^-4` are written with an
exponent. -/
def explicit : NumberLayout := ⟨".0", some (-4), some 16⟩

/-- Whether a number whose leading digit stands at `leading` is written without an exponent. -/
def isPositional (layout : NumberLayout) (leading : Int) : Bool :=
  layout.positionalFrom.all (· ≤ leading) && layout.positionalBelow.all (leading < ·)

/-- `count` zeros. -/
def zeros (count : Nat) : String := String.ofList (List.replicate count '0')

/-- The digits with a point before the last `places` of them, padded in front as needed. -/
def withPoint (digits : List Char) (places : Nat) : String :=
  let padded := List.replicate (places + 1 - digits.length) '0' ++ digits
  String.ofList (padded.take (padded.length - places)) ++ "." ++
    String.ofList (padded.drop (padded.length - places))

/-- The digits of a decimal without the zeros at its end, and the exponent that makes up for
them. -/
def trimmed (d : Decimal) : List Char × Int :=
  let digits := Nat.toDigits 10 d.digits
  let kept := (digits.reverse.dropWhile (· == '0')).reverse
  (kept, d.exponent + (digits.length - kept.length : Nat))

/-- A positive decimal, laid out. -/
def decimal (layout : NumberLayout) (d : Decimal) : String :=
  let (digits, exponent) := trimmed d
  let leading := exponent + digits.length - 1
  if layout.isPositional leading then
    if 0 ≤ exponent then String.ofList digits ++ zeros exponent.toNat ++ layout.wholeSuffix
    else withPoint digits (-exponent).toNat
  else
    let mantissa :=
      if digits.length = 1 then String.ofList digits else withPoint digits (digits.length - 1)
    mantissa ++ "e" ++ toString leading

/-- The text of a double. -/
def text (layout : NumberLayout) (x : Double) : String :=
  if x.isNaN then "NaN"
  else
    let size :=
      if x.isInfinite then "inf"
      else if x.isZero then "0" ++ layout.wholeSuffix
      else layout.decimal x.shortest
    if x.negative then "-" ++ size else size

end NumberLayout

end StatementEngine
