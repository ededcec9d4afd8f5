/-!
# Numbers of arguments

How many arguments a function takes, and how error messages put it.
-/

namespace Bhasha

/-- The numbers of arguments that a function takes. -/
inductive Arity where
  | exactly (count : Nat)
  | atLeast (count : Nat)
  | oneOf (counts : List Nat)
deriving DecidableEq

namespace Arity

/-- Whether a function takes so many arguments. -/
def accepts : Arity → Nat → Bool
  | exactly count, found => found == count
  | atLeast count, found => count ≤ found
  | oneOf counts, found => counts.contains found

/-- How error messages put an arity. -/
def text : Arity → String
  | exactly count => toString count
  | atLeast count => s!"at least {count}"
  | oneOf counts => " or ".intercalate (counts.map toString)

end Arity

end Bhasha
