/-!
# Sets of characters given by ranges

A property of characters is listed as ranges of code points in increasing order.  Membership
walks the list and stops at the first range above the code point, so characters with small
code points are decided quickly.  The tables of properties and of case are those of Unicode 17.
-/

namespace Bhasha.Text

/-- Whether a code point lies in one of the ranges, which stand in increasing order. -/
def inRanges (codePoint : Nat) : List (Nat × Nat) → Bool
  | [] => false
  | (first, last) :: rest =>
      if codePoint < first then false
      else codePoint ≤ last || inRanges codePoint rest

end Bhasha.Text
