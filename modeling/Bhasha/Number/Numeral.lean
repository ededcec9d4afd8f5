import Bhasha.Number.Decimal
import Bhasha.Text.Blank

/-!
# Numerals

The texts that stand for numbers.  A numeral has an optional sign, digits with at most one
point among or around them, and an optional exponent; the infinities are words.  Blanks around
a numeral do not count, the empty text stands for zero, and every other text is not a number.
-/

namespace Bhasha

namespace Number

/-- The absence of a number. -/
def nan : Float := 0.0 / 0.0

/-- The positive infinity. -/
def infinity : Float := 1.0 / 0.0

/-- A leading sign, with whether it is a minus, and what follows it. -/
def splitSign : List Char → Bool × List Char
  | '-' :: rest => (true, rest)
  | '+' :: rest => (false, rest)
  | text => (false, text)

/-- The digits after a leading point, and what follows them.  Without a point there are none. -/
def splitFraction : List Char → List Char × List Char
  | '.' :: rest => (rest.takeWhile Char.isDigit, rest.dropWhile Char.isDigit)
  | text => ([], text)

/-- The scale that the end of a numeral gives: nothing, or an exponent with at least one
digit. -/
def scale? : List Char → Option Int
  | [] => some 0
  | mark :: rest =>
      let (negative, digits) := splitSign rest
      if (mark = 'e' ∨ mark = 'E') ∧ digits ≠ [] ∧ digits.all Char.isDigit then
        let size : Int := Decimal.ofDigits digits
        some (if negative then -size else size)
      else none

/-- The number that a numeral spells, and nothing for any other text. -/
def numeral? (text : List Char) : Option Float :=
  let (negative, unsigned) := splitSign text
  let whole := unsigned.takeWhile Char.isDigit
  let (fraction, rest) := splitFraction (unsigned.dropWhile Char.isDigit)
  if whole = [] ∧ fraction = [] then none
  else
    (scale? rest).map fun scale =>
      let size := (Decimal.ofParts whole fraction scale).toFloat
      if negative then -size else size

/-- The number that a text stands for. -/
def parse (text : String) : Float :=
  match String.ofList (Text.trim text.toList) with
  | "" => 0
  | "Infinity" => infinity
  | "+Infinity" => infinity
  | "-Infinity" => -infinity
  | trimmed => (numeral? trimmed.toList).getD nan

end Number

end Bhasha
