import Bhasha.Number.Decimal

/-!
# The shortest decimal of a number

A positive finite number is written with the fewest digits that read back as the same number.
Fewest digits means the coarsest power of ten one of whose multiples reads back, so the search
goes from a power of ten above the number down to finer ones.  On each grid only the two
multiples around the number are tried; when both read back the nearer one is taken, and a tie
goes up.
-/

namespace Bhasha

namespace Decimal

/-- The quotient and the remainder of `mantissa · 2 ^ binary` by `10 ^ decimal`, the remainder
as a fraction of the divisor. -/
structure GridPosition where
  below : Nat
  remainder : Nat
  divisor : Nat

/-- Where `mantissa · 2 ^ binary` stands on the grid of the multiples of `10 ^ decimal`. -/
def gridPosition (mantissa : Nat) (binary decimal : Int) : GridPosition :=
  let dividend := mantissa * Nat.pow 2 binary.toNat * Nat.pow 10 (-decimal).toNat
  let divisor := Nat.pow 2 (-binary).toNat * Nat.pow 10 decimal.toNat
  { below := dividend / divisor, remainder := dividend % divisor, divisor := divisor }

/-- The multiple of `10 ^ decimal` next to `number` that reads back as `number`, if there is
one. -/
def onGrid? (number : Float) (mantissa : Nat) (binary decimal : Int) : Option Decimal :=
  let position := gridPosition mantissa binary decimal
  let below : Decimal := ⟨position.below, decimal⟩
  let above : Decimal := ⟨position.below + 1, decimal⟩
  let belowReadsBack := below.toFloat = number
  let aboveReadsBack := above.toFloat = number
  let aboveIsNearer := position.divisor ≤ 2 * position.remainder
  if aboveReadsBack ∧ (aboveIsNearer ∨ ¬belowReadsBack) then some above
  else if belowReadsBack then some below
  else none

/-- The first grid, from `10 ^ decimal` downwards, on which `number` is found. -/
def coarsest? (number : Float) (mantissa : Nat) (binary : Int) : Nat → Int → Option Decimal
  | 0, _ => none
  | tries + 1, decimal =>
      match onGrid? number mantissa binary decimal with
      | some found => some found
      | none => coarsest? number mantissa binary tries (decimal - 1)

/-- The decimal that is exactly `mantissa · 2 ^ binary`. -/
def exactly (mantissa : Nat) (binary : Int) : Decimal :=
  if 0 ≤ binary then ⟨mantissa * Nat.pow 2 binary.toNat, 0⟩
  else ⟨mantissa * Nat.pow 5 (-binary).toNat, binary⟩

/-- An exponent whose power of ten is above `mantissa · 2 ^ binary`: a power of two has at most
three tenths as many decimal places as binary ones, and a little more. -/
def ceilingExponent (mantissa : Nat) (binary : Int) : Int :=
  ((mantissa.log2 + 1 : Nat) + binary) * 30103 / 100000 + 1

/-- The shortest decimal that reads back as the size of a finite number.  Seventeen digits always
suffice, so twenty grids are enough. -/
def shortest (number : Float) : Decimal :=
  match number.toModel.unpack with
  | .finite _ mantissa binary _ =>
      (coarsest? number.abs mantissa binary 20 (ceilingExponent mantissa binary)).getD
        (exactly mantissa binary)
  | _ => ⟨0, 0⟩

end Decimal

end Bhasha
