/-!
# Decimals

A decimal is a coefficient times a power of ten.  Reading it as a number rounds to the nearest
number, a half going to the even neighbour.  Writing it spells out every place, so no decimal
is ever written with an exponent.
-/

namespace Bhasha

/-- The decimal `coefficient · 10 ^ exponent`. -/
structure Decimal where
  coefficient : Nat
  exponent : Int
deriving DecidableEq

namespace Decimal

/-- The number nearest to a decimal. -/
def toFloat (d : Decimal) : Float :=
  if 0 ≤ d.exponent then Float.ofScientific d.coefficient false d.exponent.toNat
  else Float.ofScientific d.coefficient true (-d.exponent).toNat

/-- The value of a digit, and zero for any other character. -/
def digitValue (c : Char) : Nat :=
  if c.isDigit then c.toNat - '0'.toNat else 0

/-- The natural number that a run of digits spells. -/
def ofDigits (digits : List Char) : Nat :=
  digits.foldl (fun value c => 10 * value + digitValue c) 0

/-- The decimal with the given digits before and after the point, shifted by `scale` places. -/
def ofParts (whole fraction : List Char) (scale : Int) : Decimal where
  coefficient := ofDigits (whole ++ fraction)
  exponent := scale - fraction.length

/-- The digits of a natural number, most significant first. -/
def digitsOf (n : Nat) : List Char :=
  Nat.toDigits 10 n

/-- A decimal in positional notation, with at least one digit before the point. -/
def positional (d : Decimal) : List Char :=
  let digits := digitsOf d.coefficient
  if 0 ≤ d.exponent then
    digits ++ List.replicate d.exponent.toNat '0'
  else
    let places := (-d.exponent).toNat
    let padded := List.replicate (places + 1 - digits.length) '0' ++ digits
    padded.take (padded.length - places) ++ '.' :: padded.drop (padded.length - places)

end Decimal

end Bhasha
