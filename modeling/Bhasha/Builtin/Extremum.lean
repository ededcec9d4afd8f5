import Bhasha.Fault
import Bhasha.Number.Numeral

/-!
# The greatest and the least of some numbers

All arguments have to be numbers.  One that is not a number makes the result one; among equal
numbers the last is kept, which only the sign of a zero can show.
-/

namespace Bhasha

namespace Builtin

/-- The better of the best so far and the next number, which wins a tie. -/
def improve (replaces : Float → Float → Bool) (best next : Float) : Float :=
  if next.isNaN then Number.nan
  else if best.isNaN then best
  else if replaces next best then next
  else best

/-- The best of some arguments, starting from a number that any other replaces. -/
def bestOf (replaces : Float → Float → Bool) (worst : Float) (arguments : List Value) (line : Nat) :
    Except Fault Float :=
  arguments.foldlM (fun best value => do
    let next ← value.asNumber line
    return improve replaces best next) worst

def greatestOf (arguments : List Value) (line : Nat) : Except Fault Float :=
  bestOf (fun next best => best ≤ next) (-Number.infinity) arguments line

def leastOf (arguments : List Value) (line : Nat) : Except Fault Float :=
  bestOf (fun next best => next ≤ best) Number.infinity arguments line

end Builtin

end Bhasha
