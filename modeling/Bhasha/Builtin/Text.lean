import Bhasha.Number.Integer
import Bhasha.Text.Case
import Bhasha.Value.Conversion
import Bhasha.Value.Display

/-!
# Search and slicing

Both count characters.  A bound of a slice may be any value: it counts as the whole number that
is left of its number, and a negative bound counts from the end.
-/

namespace Bhasha

namespace Builtin

/-- The first place of a text at which another one stands. -/
def occurrence? (needle : List Char) : List Char → Option Nat
  | [] => if needle.isEmpty then some 0 else none
  | c :: rest =>
      if needle.isPrefixOf (c :: rest) then some 0
      else (occurrence? needle rest).map (· + 1)

/-- The place of a text in another, or minus one. -/
def findIn (text needle : String) : Float :=
  match occurrence? needle.toList text.toList with
  | some place => Number.ofNat place
  | none => -1

/-- The place in a text of the given length that a whole number stands for as a bound. -/
def resolveBound (length : Nat) (bound : Int) : Nat :=
  if bound < 0 then (length + bound).toNat else min bound.toNat length

/-- The place in a text of the given length that a value stands for as a bound. -/
def boundOf (store : Store) (length : Nat) (value : Value) : Nat :=
  resolveBound length (Number.truncate (value.toNumber store))

/-- The characters from one place up to another. -/
def between (text : List Char) (start stop : Nat) : List Char :=
  (text.take stop).drop start

/-- The part of a text between two bounds.  Without a first argument the text is empty, and
without bounds they are its ends. -/
def sliceOf (store : Store) (arguments : List Value) : String :=
  let text := (arguments[0]?.elim "" (·.display store)).toList
  let start := arguments[1]?.elim 0 (boundOf store text.length)
  let stop := arguments[2]?.elim text.length (boundOf store text.length)
  String.ofList (between text start stop)

/-- The texts of all arguments but null. -/
def joinTexts (store : Store) (arguments : List Value) : String :=
  String.join ((arguments.filter (· ≠ .null)).map (·.display store))

/-- The number of items of a list, or of characters in the text of any other value. -/
def lengthOf (store : Store) : Value → Nat
  | .list address => (store.items address).size
  | value => (value.display store).length

end Builtin

end Bhasha
