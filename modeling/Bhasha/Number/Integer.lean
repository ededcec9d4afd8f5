/-!
# Whole numbers among the numbers

Positions in lists and texts are whole numbers, read off a number exactly: from its sign, its
mantissa and its binary exponent.
-/

namespace Bhasha

open Float.Model (UnpackedFloat)

namespace Number

/-- The largest position: the last whole number below which all whole numbers are numbers. -/
def greatestIndex : Nat := Nat.pow 2 53 - 1

/-- The position that a number stands for.  A position is whole, not negative and at most
`greatestIndex`; the negative zero counts as zero. -/
def index? (x : Float) : Option Nat :=
  match x.toModel.unpack with
  | .zero _ => some 0
  | .finite .positive mantissa binary _ =>
      let scaled := mantissa * Nat.pow 2 binary.toNat
      let divisor := Nat.pow 2 (-binary).toNat
      let position := scaled / divisor
      if scaled % divisor = 0 ∧ position ≤ greatestIndex then some position else none
  | _ => none

/-- The least whole number of sixty-four bits with sign. -/
def leastWhole : Int := -Int.pow 2 63

/-- The greatest whole number of sixty-four bits with sign. -/
def greatestWhole : Int := Int.pow 2 63 - 1

/-- The whole number with a sign and a size. -/
def signed : UnpackedFloat.Sign → Int → Int
  | .positive, size => size
  | .negative, size => -size

/-- A number without its fraction, kept within sixty-four bits.  What is not a number counts as
zero. -/
def truncate (x : Float) : Int :=
  match x.toModel.unpack with
  | .notANumber => 0
  | .zero _ => 0
  | .infinity .positive => greatestWhole
  | .infinity .negative => leastWhole
  | .finite sign mantissa binary _ =>
      let size : Nat := mantissa * Nat.pow 2 binary.toNat / Nat.pow 2 (-binary).toNat
      max leastWhole (min greatestWhole (signed sign size))

def ofNat (n : Nat) : Float :=
  Float.ofNat n

/-- The number nearest to `mantissa · 2 ^ binary`, with a sign. -/
def ofBinary (sign : UnpackedFloat.Sign) (mantissa : Nat) (binary : Int) : Float :=
  .ofModel (.pack (.round .binary64 sign mantissa binary))

/-- The remainder of a division whose quotient is cut to a whole number.  It is exact and has
the sign of the dividend. -/
def remainder (x y : Float) : Float :=
  match x.toModel.unpack, y.toModel.unpack with
  | .notANumber, _ | _, .notANumber | .infinity _, _ | _, .zero _ => 0.0 / 0.0
  | .zero _, _ | _, .infinity _ => x
  | .finite sign mantissa binary _, .finite _ mantissa' binary' _ =>
      let common := min binary binary'
      let dividend := mantissa * Nat.pow 2 (binary - common).toNat
      let divisor := mantissa' * Nat.pow 2 (binary' - common).toNat
      ofBinary sign (dividend % divisor) common

/-- The nearest whole number, a half going up. -/
def round (x : Float) : Float :=
  let below := x.floor
  if 0.5 ≤ x - below then below + 1 else below

end Number

end Bhasha
