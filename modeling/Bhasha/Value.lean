import Bhasha.Program

/-!
# Values

Numbers, texts, booleans and null are values by themselves.  Lists and records are containers
that live in a store, and a value only holds the address of one, so that all holders of an
address see the same contents.
-/

namespace Bhasha

/-- Where a container stands in the store. -/
abbrev Address := Nat

/-- A value of the language. -/
inductive Value where
  | number (value : Float)
  | text (value : String)
  | boolean (value : Bool)
  | null
  | list (address : Address)
  | record (address : Address)
deriving DecidableEq

/-- The value of a constant. -/
def Literal.toValue : Literal → Value
  | number value => .number value
  | text value => .text value
  | boolean value => .boolean value
  | null => .null

/-- The types of values. -/
inductive ValueType where
  | number
  | text
  | boolean
  | null
  | list
  | record
deriving DecidableEq

/-- What error messages call a type. -/
def ValueType.name : ValueType → String
  | number => "number"
  | text => "text"
  | boolean => "boolean"
  | null => "null"
  | list => "list"
  | record => "record"

/-- What the language itself calls a type, which does not tell containers from null. -/
def ValueType.kindName : ValueType → String
  | number => "number"
  | text => "string"
  | boolean => "boolean"
  | null | list | record => "object"

/-- The type of a value. -/
def Value.type : Value → ValueType
  | number _ => .number
  | text _ => .text
  | boolean _ => .boolean
  | null => .null
  | list _ => .list
  | record _ => .record

/-- The address that a value holds. -/
def Value.address? : Value → Option Address
  | list address | record address => some address
  | number _ | text _ | boolean _ | null => none

end Bhasha
