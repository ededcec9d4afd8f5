import Bhasha.Text.Ranges

/-!
# Blank characters

The characters of the Unicode property White_Space, and the text that is left when they are
removed from both ends.
-/

namespace Bhasha.Text

/-- The code points of the property White_Space. -/
def blankRanges : List (Nat × Nat) :=
  [(0x9, 0xD), (0x20, 0x20), (0x85, 0x85), (0xA0, 0xA0), (0x1680, 0x1680), (0x2000, 0x200A),
    (0x2028, 0x2029), (0x202F, 0x202F), (0x205F, 0x205F), (0x3000, 0x3000)]

/-- A blank is a character of the property White_Space. -/
def isBlank (c : Char) : Bool :=
  inRanges c.toNat blankRanges

/-- The text without the blanks at its two ends. -/
def trim (text : List Char) : List Char :=
  ((text.dropWhile isBlank).reverse.dropWhile isBlank).reverse

end Bhasha.Text
