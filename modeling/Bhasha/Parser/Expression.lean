import Bhasha.Parser.Basic
import Bhasha.Program

/-!
# Reading expressions

Expressions have levels, from the loosest operators to the tightest: or, and, comparison,
addition, multiplication, the operators in front of an operand, the brackets and properties
behind one, and primary expressions.  Operators of one level group to the left.  Each level is
given as a parser in terms of the parser for a whole expression, which only a primary expression
or an index calls again.  An expression nested in another has fewer tokens, so the nesting is
bounded by the number of tokens.
-/

namespace Bhasha

namespace Parser

/-- An operator of a level, as the node that it builds. -/
abbrev Joiner := Token → Option (Expr → Expr → Expr)

/-- The operands and operators of one level after the first operand, in at most so many
rounds. -/
def joinFrom (joiner : Joiner) (operand : Parser Expr) : Nat → Expr → Parser Expr
  | 0, left => return left
  | rounds + 1, left => do
      match joiner (← current) with
      | none => return left
      | some join =>
          let _ ← advance
          let right ← operand
          joinFrom joiner operand rounds (join left right)

/-- Operands joined by the operators of one level, grouped to the left. -/
def joined (joiner : Joiner) (operand : Parser Expr) : Parser Expr := do
  let first ← operand
  joinFrom joiner operand (← remaining) first

/-- The joiner of a level of binary operators. -/
def binaryJoiner (operator? : Symbol → Option BinaryOp) : Joiner := fun token =>
  match token.kind with
  | .symbol mark =>
      (operator? mark).map fun op left right => .binary op left right token.line
  | _ => none

def multiplicativeOp? : Symbol → Option BinaryOp
  | .star => some .multiply
  | .slash => some .divide
  | .percent => some .modulo
  | _ => none

def additiveOp? : Symbol → Option BinaryOp
  | .plus => some .add
  | .minus => some .subtract
  | _ => none

def comparisonOp? : Symbol → Option BinaryOp
  | .equalEqual => some .equal
  | .notEqual => some .notEqual
  | .less => some .less
  | .lessEqual => some .lessEqual
  | .greater => some .greater
  | .greaterEqual => some .greaterEqual
  | _ => none

def andJoiner : Joiner := fun token =>
  match token.kind with
  | .keyword .ra | .symbol .andAnd =>
      some fun left right => .logical .and left right token.line
  | _ => none

def orJoiner : Joiner := fun token =>
  match token.kind with
  | .keyword .wa | .symbol .orOr => some fun left right => .logical .or left right token.line
  | _ => none

/-- The operator that a token in front of an operand is. -/
def unaryOp? (token : Token) : Option UnaryOp :=
  match token.kind with
  | .symbol .bang | .keyword .hoina => some .not
  | .symbol .minus => some .negate
  | _ => none

/-- The key of a record entry: a word or a text. -/
def entryKey : Parser String := do
  match (← current).kind with
  | .text key =>
      let _ ← advance
      return key
  | _ => word

/-- A call of a name whose token stood on the given line; the current token opens the
arguments. -/
def callOf (expression : Parser Expr) (name : String) (line : Nat) : Parser Expr := do
  let _ ← symbol .leftParen
  let arguments ← commaList .rightParen expression
  return .call name arguments line

/-- An entry of a record: a key, a colon and a value, which may start on a later line. -/
def entry (expression : Parser Expr) : Parser (String × Expr) := do
  let key ← entryKey
  let _ ← symbol .colon
  skipNewlines
  let value ← expression
  return (key, value)

/-- A constant; the current token spells it. -/
def constant (value : Literal) (line : Nat) : Parser Expr := do
  let _ ← advance
  return .literal value line

/-- A primary expression: a constant, a variable, a call, a list, a record, or an expression
in parentheses. -/
def primary (expression : Parser Expr) : Parser Expr := do
  let token ← current
  let line := token.line
  match token.kind with
  | .number value => constant (.number value) line
  | .text value => constant (.text value) line
  | .keyword .satya => constant (.boolean true) line
  | .keyword .asatya => constant (.boolean false) line
  | .keyword .khali => constant .null line
  | .word name =>
      let _ ← advance
      if ← isAt (.symbol .leftParen) then callOf expression name line
      else return .var name line
  | .symbol .leftBracket =>
      let _ ← advance
      let elements ← commaList .rightBracket expression
      return .list elements line
  | .symbol .leftBrace =>
      let _ ← advance
      let entries ← commaList .rightBrace (entry expression)
      return .record entries line
  | .symbol .leftParen =>
      let _ ← advance
      let inner ← expression
      let _ ← symbol .rightParen
      return inner
  | _ => fail .expectedExpression

/-- The indexes and properties behind an expression, in at most so many rounds. -/
def suffixes (expression : Parser Expr) : Nat → Expr → Parser Expr
  | 0, target => return target
  | rounds + 1, target => do
      let token ← current
      match token.kind with
      | .symbol .leftBracket =>
          let _ ← advance
          let position ← expression
          let _ ← symbol .rightBracket
          suffixes expression rounds (.index target position token.line)
      | .symbol .dot =>
          let _ ← advance
          let name ← word
          suffixes expression rounds (.property target name token.line)
      | _ => return target

/-- A primary expression with the indexes and properties behind it. -/
def suffixed (expression : Parser Expr) : Parser Expr := do
  let target ← primary expression
  suffixes expression (← remaining) target

/-- Operators in front of a suffixed expression, at most so many. -/
def signed (expression : Parser Expr) : Nat → Parser Expr
  | 0 => suffixed expression
  | rounds + 1 => do
      let token ← current
      match unaryOp? token with
      | none => suffixed expression
      | some op =>
          let _ ← advance
          let operand ← signed expression rounds
          return .unary op operand token.line

def unary (expression : Parser Expr) : Parser Expr := do
  signed expression (← remaining)

def multiplicative (expression : Parser Expr) : Parser Expr :=
  joined (binaryJoiner multiplicativeOp?) (unary expression)

def additive (expression : Parser Expr) : Parser Expr :=
  joined (binaryJoiner additiveOp?) (multiplicative expression)

def comparison (expression : Parser Expr) : Parser Expr :=
  joined (binaryJoiner comparisonOp?) (additive expression)

def conjunction (expression : Parser Expr) : Parser Expr :=
  joined andJoiner (comparison expression)

/-- The level of disjunction, which is the loosest. -/
def disjunction (expression : Parser Expr) : Parser Expr :=
  joined orJoiner (conjunction expression)

/-- An expression that is nested less deep than the given bound. -/
def expressionWithin : Nat → Parser Expr
  | 0 => fail .expectedExpression
  | depth + 1 => disjunction (expressionWithin depth)

/-- An expression of one level.  The expressions inside it have fewer tokens than are left, so
their nesting is bounded by that number. -/
def level (parser : Parser Expr → Parser Expr) : Parser Expr := do
  parser (expressionWithin (← remaining))

def expression : Parser Expr :=
  level disjunction

end Parser

end Bhasha
