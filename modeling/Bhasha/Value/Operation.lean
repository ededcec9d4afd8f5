import Bhasha.Fault
import Bhasha.Number.Integer
import Bhasha.Value.Conversion
import Bhasha.Value.Display

/-!
# The operators on values

Arithmetic takes numbers; a sum with a text joins the texts of both sides.  Order is defined
between two numbers and between two texts, the latter by code points.
-/

namespace Bhasha

namespace UnaryOp

def apply (op : UnaryOp) (operand : Value) (line : Nat) : Except Fault Value :=
  match op with
  | negate => (operand.asNumber line).map fun value => .number (-value)
  | not => .ok (.boolean !operand.truthy)

end UnaryOp

namespace BinaryOp

/-- Calculates with two numbers.  An operator that does not calculate gives nothing. -/
def calculate (op : BinaryOp) (left right : Float) (line : Nat) :
    Option (Except Fault Float) :=
  match op with
  | add => some (.ok (left + right))
  | subtract => some (.ok (left - right))
  | multiply => some (.ok (left * right))
  | divide => some (if right == 0 then .error ⟨.divisionByZero, line⟩ else .ok (left / right))
  | modulo =>
      some (if right == 0 then .error ⟨.moduloByZero, line⟩
        else .ok (Number.remainder left right))
  | equal | notEqual | less | lessEqual | greater | greaterEqual => none

/-- The fault of operands that do not fit an operator. -/
def misfit (op : BinaryOp) (left right : Value) (line : Nat) : Fault :=
  .ofType (.operands op left.type right.type) line

/-- Applies an operator of arithmetic. -/
def applyArithmetic (store : Store) (op : BinaryOp) (left right : Value) (line : Nat) :
    Except Fault Value :=
  match left, right with
  | .number leftNumber, .number rightNumber =>
      match op.calculate leftNumber rightNumber line with
      | some result => result.map .number
      | none => .error (op.misfit left right line)
  | _, _ =>
      if op = add ∧ (left.type = .text ∨ right.type = .text) then
        .ok (.text (left.display store ++ right.display store))
      else .error (op.misfit left right line)

/-- Whether two numbers stand in the order of an operator.  What is not a number stands in
none. -/
def orderNumbers (op : BinaryOp) (left right : Float) : Bool :=
  match op with
  | less => left < right
  | lessEqual => left ≤ right
  | greater => right < left
  | greaterEqual => right ≤ left
  | add | subtract | multiply | divide | modulo | equal | notEqual => false

/-- Whether two texts stand in the order of an operator. -/
def orderTexts (op : BinaryOp) (left right : String) : Bool :=
  match op with
  | less => left < right
  | lessEqual => ¬right < left
  | greater => right < left
  | greaterEqual => ¬left < right
  | add | subtract | multiply | divide | modulo | equal | notEqual => false

/-- Applies an operator of comparison. -/
def applyComparison (op : BinaryOp) (left right : Value) (line : Nat) : Except Fault Value :=
  match op with
  | equal => .ok (.boolean (left.looselyEquals right))
  | notEqual => .ok (.boolean !left.looselyEquals right)
  | op =>
      match left, right with
      | .number leftNumber, .number rightNumber =>
          .ok (.boolean (op.orderNumbers leftNumber rightNumber))
      | .text leftText, .text rightText => .ok (.boolean (op.orderTexts leftText rightText))
      | _, _ => .error (.ofType (.incomparable op left.type right.type) line)

/-- Applies a binary operator. -/
def apply (store : Store) (op : BinaryOp) (left right : Value) (line : Nat) :
    Except Fault Value :=
  if op.isComparison then op.applyComparison left right line
  else op.applyArithmetic store left right line

end BinaryOp

end Bhasha
