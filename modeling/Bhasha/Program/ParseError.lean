import Bhasha.Token.Lexer

/-!
# Errors of reading a program

A source text is refused because it is not made of tokens, or because a token does not fit.
Each error has a line and a message.
-/

namespace Bhasha

namespace LexicalError

def line : LexicalError → Nat
  | unknownCharacter _ position => position.line
  | unterminatedText line _ => line

def column : LexicalError → Nat
  | unknownCharacter _ position => position.column
  | unterminatedText _ column => column

/-- The character that an error is about. -/
def found? : LexicalError → Option Char
  | unknownCharacter found _ => some found
  | unterminatedText _ _ => none

def message : LexicalError → String
  | unknownCharacter found ⟨line, column⟩ =>
      s!"Unknown character: {found} at line {line}, column {column}"
  | unterminatedText line _ => s!"Unterminated string at line {line}"

end LexicalError

/-- How a token fails to fit. -/
inductive SyntaxCause where
  | unexpectedToken (expected found : TokenClass)
  /-- The opening word of a statement is followed by nothing that a statement starts with. -/
  | expectedStatementKeyword (found : TokenClass)
  /-- A name that starts a statement is neither assigned to nor called. -/
  | unexpectedAfterWord (found : TokenClass)
  | expectedExpression (found : TokenClass)
  | expectedStatement (found : TokenClass)
deriving DecidableEq

/-- A token that does not fit, and its line. -/
structure SyntaxError where
  cause : SyntaxCause
  line : Nat
deriving DecidableEq

def SyntaxError.message (error : SyntaxError) : String :=
  let line := error.line
  match error.cause with
  | .unexpectedToken expected found =>
      s!"Expected {expected.name}, got {found.name} at line {line}"
  | .expectedStatementKeyword found =>
      s!"Expected BHANA or YO after SATHI, got {found.name} at line {line}"
  | .unexpectedAfterWord found =>
      s!"Unexpected token after identifier: {found.name} at line {line}"
  | .expectedExpression found => s!"Unexpected token: {found.name} at line {line}"
  | .expectedStatement found => s!"Unexpected start of statement: {found.name} at line {line}"

/-- Why a source text is not a program. -/
inductive ParseError where
  | lexical (error : LexicalError)
  | grammar (error : SyntaxError)
deriving DecidableEq

namespace ParseError

def line : ParseError → Nat
  | lexical error => error.line
  | grammar error => error.line

def message : ParseError → String
  | lexical error => error.message
  | grammar error => error.message

end ParseError

end Bhasha
