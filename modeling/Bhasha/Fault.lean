import Bhasha.Arity
import Bhasha.Value

/-!
# Errors at run time

A fault has a cause and the line at which it arose; its message does not mention the line.
Faults can be handled by a program.  One thing cannot: a record asked to hold a value under a
key whose text shows that same record.  It ends the run on the spot.
-/

namespace Bhasha

/-- How the type of a value fails to fit. -/
inductive TypeFault where
  | notANumber (found : ValueType)
  | operands (op : BinaryOp) (left right : ValueType)
  | incomparable (op : BinaryOp) (left right : ValueType)
  | notIndexable (found : ValueType)
  | notWritableByIndex (found : ValueType)
  | noPropertyToRead (name : String) (found : ValueType)
  | noPropertyToWrite (name : String) (found : ValueType)
  | notAList (function : String) (found : ValueType)
deriving DecidableEq

/-- The text of a failure to fit. -/
def TypeFault.message : TypeFault → String
  | notANumber found => s!"expected a number, found {found.name}"
  | operands op left right => s!"cannot apply '{op.spelling}' to {left.name} and {right.name}"
  | incomparable op left right =>
      s!"cannot compare {left.name} and {right.name} with '{op.spelling}'"
  | notIndexable found => s!"cannot index into {found.name}"
  | notWritableByIndex found => s!"cannot assign by index into {found.name}"
  | noPropertyToRead name found => s!"cannot read property '{name}' of {found.name}"
  | noPropertyToWrite name found => s!"cannot set property '{name}' on {found.name}"
  | notAList function found => s!"{function} expects a list, found {found.name}"

/-- Why a program fails. -/
inductive FaultCause where
  | undefinedVariable (name : String)
  | undefinedAssignment (name : String)
  | undefinedFunction (name : String)
  | argumentCount (function : String) (expected : Arity) (found : Nat)
  | divisionByZero
  | moduloByZero
  | type (fault : TypeFault)
  /-- A list is written at something that is not a position, whose text is kept. -/
  | invalidIndex (shown : String)
  | breakOutsideLoop
  | continueOutsideLoop
  | returnOutsideFunction
  | callDepthExceeded (limit : Nat)
deriving DecidableEq

/-- The text of a cause. -/
def FaultCause.message : FaultCause → String
  | undefinedVariable name => s!"Undefined variable: {name}"
  | undefinedAssignment name => s!"Cannot reassign undefined variable: {name}"
  | undefinedFunction name => s!"Undefined function: {name}"
  | argumentCount function expected found =>
      s!"Function {function} expects {expected.text} arguments, got {found}"
  | divisionByZero => "Division by zero"
  | moduloByZero => "Modulo by zero"
  | type fault => s!"Type error: {fault.message}"
  | invalidIndex shown => s!"Invalid index: cannot assign to list index {shown}"
  | breakOutsideLoop => "thodau used outside of a loop"
  | continueOutsideLoop => "jari used outside of a loop"
  | returnOutsideFunction => "firta used outside of a function"
  | callDepthExceeded limit => s!"Maximum call depth exceeded ({limit})"

/-- A cause and the line at which it arose. -/
structure Fault where
  cause : FaultCause
  line : Nat
deriving DecidableEq

/-- The text of a fault. -/
def Fault.message (fault : Fault) : String :=
  fault.cause.message

/-- What keeps an operation on the store from finishing. -/
inductive Halt where
  /-- A fault, which can be handled. -/
  | fault (fault : Fault)
  /-- A record was to be written under a key whose text shows the record itself. -/
  | fatal
deriving DecidableEq

namespace Fault

/-- A type that does not fit, on a line. -/
def ofType (fault : TypeFault) (line : Nat) : Fault :=
  ⟨.type fault, line⟩

end Fault

/-- The number that a value is; any other value is a fault. -/
def Value.asNumber (value : Value) (line : Nat) : Except Fault Float :=
  match value with
  | .number value => .ok value
  | other => .error (.ofType (.notANumber other.type) line)

end Bhasha
