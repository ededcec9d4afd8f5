import Bhasha.Builtin
import Bhasha.Builtin.Extremum
import Bhasha.Builtin.Text
import Bhasha.Value.Access

/-!
# What the built-in functions do

A built-in function sees its arguments, the store, and the random number that is next.  Its
result is a value with an effect on the store, so one that fails leaves the store as it is.
-/

namespace Bhasha

namespace Builtin

/-- The fault of a wrong number of arguments. -/
def miscount (builtin : Builtin) (arguments : List Value) (line : Nat) : Fault :=
  ⟨.argumentCount builtin.name builtin.arity arguments.length, line⟩

/-- The result of a built-in function that only reads. -/
def only (value : Value) : Except Halt (Value × Effect) :=
  .ok (value, .nothing)

/-- The result of a built-in function that reads and may fail. -/
def reads (result : Except Fault Value) : Except Halt (Value × Effect) :=
  match result with
  | .ok value => .ok (value, .nothing)
  | .error fault => .error (.fault fault)

/-- The result of a built-in function on numbers. -/
def onNumber (value : Value) (line : Nat) (function : Float → Float) :
    Except Halt (Value × Effect) :=
  reads ((value.asNumber line).map fun number => .number (function number))

/-- A random number below the first argument, or below one if that does not count as true. -/
def randomOf (arguments : List Value) (line : Nat) (draw : Float) : Except Fault Value :=
  match arguments[0]? with
  | some value =>
      if value.truthy then (value.asNumber line).map fun scale => .number (draw * scale)
      else .ok (.number draw)
  | none => .ok (.number draw)

/-- Applies a built-in function.  One that takes a fixed number of arguments checks it. -/
def apply (builtin : Builtin) (arguments : List Value) (line : Nat) (draw : Float)
    (store : Store) : Except Halt (Value × Effect) :=
  match builtin, arguments with
  | toNumber, [value] => only (.number (value.toNumber store))
  | toText, [value] => only (.text (value.display store))
  | truth, [value] => only (.boolean value.truthy)
  | kind, [value] => only (.text value.type.kindName)
  | length, [value] => only (.number (Number.ofNat (lengthOf store value)))
  | upper, [value] => only (.text (Text.toUpper (value.display store)))
  | lower, [value] => only (.text (Text.toLower (value.display store)))
  | find, [text, needle] =>
      only (.number (findIn (text.display store) (needle.display store)))
  | slice, arguments => only (.text (sliceOf store arguments))
  | join, arguments => only (.text (joinTexts store arguments))
  | append, target :: items =>
      match target with
      | .list address => .ok (target, .appendItems address items)
      | other => .error (.fault (.ofType (.notAList append.name other.type) line))
  | removeLast, [target] =>
      match target with
      | .list address => .ok ((store.items address).back?.getD .null, .removeLast address)
      | other => .error (.fault (.ofType (.notAList removeLast.name other.type) line))
  | readAt, [target, index] => reads (target.readIndex store index line)
  | writeAt, [target, index, value] =>
      (target.writeIndex store index value line).map fun effect => (target, effect)
  | round, [value] => onNumber value line Number.round
  | ceil, [value] => onNumber value line Float.ceil
  | floor, [value] => onNumber value line Float.floor
  | absolute, [value] => onNumber value line Float.abs
  | squareRoot, [value] => onNumber value line Float.sqrt
  | power, [base, exponent] =>
      reads do
        let base ← base.asNumber line
        let exponent ← exponent.asNumber line
        return .number (base.pow exponent)
  | random, arguments => reads (randomOf arguments line draw)
  | greatest, arguments => reads ((greatestOf arguments line).map .number)
  | least, arguments => reads ((leastOf arguments line).map .number)
  | read, [] => only (.text "")
  | builtin, arguments => .error (.fault (builtin.miscount arguments line))

end Builtin

end Bhasha
