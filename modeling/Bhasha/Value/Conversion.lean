import Bhasha.Number.Numeral
import Bhasha.Store

/-!
# Truth, numbers and loose equality

Every value counts as true or false, and every value converts to a number.  Equality is loose:
a boolean counts as one or zero beside a number or a text, a text beside a number counts as the
number that it spells, and containers are equal only to themselves.
-/

namespace Bhasha

namespace Value

def truthy : Value → Bool
  | number value => value != 0 && !value.isNaN
  | text value => !value.isEmpty
  | boolean value => value
  | null => false
  | list _ | record _ => true

/-- The number that a boolean counts as. -/
def booleanNumber (value : Bool) : Float :=
  if value then 1 else 0

/-- The number that a value converts to when at most so many lists are opened.  A list of one
item converts as its item does. -/
def numberWithin (store : Store) : Nat → Value → Float
  | _, number value => value
  | _, text value => Number.parse value
  | _, boolean value => booleanNumber value
  | _, null => 0
  | _, record _ => Number.nan
  | 0, list _ => Number.nan
  | depth + 1, list address =>
      match (store.items address).toList with
      | [] => 0
      | [item] => numberWithin store depth item
      | _ => Number.nan

/-- The number that a value converts to.  If more lists would have to be opened than there are
containers, the lists hold each other in a circle and there is no number. -/
def toNumber (store : Store) (value : Value) : Float :=
  numberWithin store store.size value

/-- The value with a boolean counted as a number. -/
def countBoolean : Value → Value
  | boolean value => number (booleanNumber value)
  | value => value

/-- Loose equality of two values at most one of which is a boolean. -/
def equalsUncounted : Value → Value → Bool
  | number left, number right => left == right
  | text left, text right => left == right
  | null, null => true
  | list left, list right => left == right
  | record left, record right => left == right
  | number value, text spelled => value == Number.parse spelled
  | text spelled, number value => value == Number.parse spelled
  | _, _ => false

/-- Loose equality. -/
def looselyEquals : Value → Value → Bool
  | boolean left, boolean right => left == right
  | left, right => equalsUncounted left.countBoolean right.countBoolean

end Value

end Bhasha
