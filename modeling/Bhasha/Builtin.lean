import Bhasha.Arity

/-!
# The built-in functions

Their names and the numbers of arguments that they take.
-/

namespace Bhasha

/-- The built-in functions. -/
inductive Builtin where
  | toNumber
  | toText
  | truth
  /-- The length of a list, or of the text of a value. -/
  | length
  | upper
  | lower
  /-- The place of a text in another. -/
  | find
  /-- A part of a text. -/
  | slice
  /-- Joins the texts of its arguments. -/
  | join
  | append
  | removeLast
  | readAt
  | writeAt
  | round
  | ceil
  | floor
  | absolute
  | power
  | squareRoot
  | random
  | kind
  | greatest
  | least
  /-- Reads input; there is none. -/
  | read
deriving DecidableEq

namespace Builtin

def all : List Builtin :=
  [toNumber, toText, truth, length, upper, lower, find, slice, join, append, removeLast, readAt,
    writeAt, round, ceil, floor, absolute, power, squareRoot, random, kind, greatest, least, read]

/-- What programs call a built-in function. -/
def name : Builtin → String
  | toNumber => "sankhya"
  | toText => "shabda"
  | truth => "tathya"
  | length => "lambai"
  | upper => "upari"
  | lower => "tala"
  | find => "khojne"
  | slice => "kaatne"
  | join => "jodne"
  | append => "thapaune"
  | removeLast => "hataune"
  | readAt => "prapt"
  | writeAt => "sthapana"
  | round => "gol"
  | ceil => "mathi"
  | floor => "tala_math"
  | absolute => "mutlak"
  | power => "shakti"
  | squareRoot => "vargamul"
  | random => "yaksyamsh"
  | kind => "prakar"
  | greatest => "thulo"
  | least => "sano"
  | read => "padhne"

/-- The numbers of arguments that a built-in function takes. -/
def arity : Builtin → Arity
  | toNumber | toText | truth | length | upper | lower | removeLast | round | ceil | floor
  | absolute | squareRoot | kind => .exactly 1
  | find | readAt | power => .exactly 2
  | writeAt => .exactly 3
  | read => .exactly 0
  | slice => .oneOf [2, 3]
  | random => .oneOf [0, 1]
  | append => .atLeast 1
  | join | greatest | least => .atLeast 0

/-- The built-in function with a name. -/
def ofName? (name : String) : Option Builtin :=
  all.find? (·.name == name)

end Builtin

end Bhasha
