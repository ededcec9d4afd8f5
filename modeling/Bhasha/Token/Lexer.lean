import Bhasha.Number.Decimal
import Bhasha.Token

/-!
# From source text to tokens

A source text is cut from left to right.  At each place one step is taken: a blank or a comment
is skipped, a token is read, or the text is refused there.  A step says how many characters
after the first it takes, so the pieces of a text are disjoint, lie in order and leave nothing
out.  A step takes as much as it can: a word is not followed by a word character, and a symbol
of two characters is preferred to one.
-/

namespace Bhasha

/-- Why a source text is not made of tokens. -/
inductive LexicalError where
  /-- No token starts with this character. -/
  | unknownCharacter (found : Char) (position : Position)
  /-- A text literal is still open at the end of the source.  The error is on the last line,
  and its column is that of the opening quote. -/
  | unterminatedText (line column : Nat)
deriving DecidableEq

/-- The tokens of a source text and how they end: at the end of the source, whose position is
kept, or in a lexical error. -/
structure Lexed where
  tokens : List Token
  ending : Except LexicalError Position

namespace Lexer

/-- The blanks between tokens.  A newline is not one of them. -/
def isBlank (c : Char) : Bool :=
  c == ' ' || c == '\t' || c == '\r' || c == '\x0c'

/-- The characters that a word starts with. -/
def isWordStart (c : Char) : Bool :=
  c.isAlpha || c == '_'

/-- The characters that a word goes on with. -/
def isWordPart (c : Char) : Bool :=
  c.isAlphanum || c == '_'

/-- What is done at a place of the source text.  The numbers count the characters taken after
the first. -/
inductive Step where
  | skip (extra : Nat)
  | token (kind : TokenKind) (extra : Nat)
  | unknown
  | unterminated
deriving DecidableEq

/-- What an escaped character stands for. -/
def unescape : Char → Char
  | 'n' => '\n'
  | 't' => '\t'
  | 'r' => '\r'
  | c => c

/-- The value of a text literal after its opening quote, and the number of characters up to and
with the closing one. -/
def closeText? (quote : Char) : List Char → Option (List Char × Nat)
  | [] => none
  | c :: rest =>
      if c = quote then some ([], 1)
      else if c = '\\' then
        match rest with
        | [] => none
        | escaped :: rest =>
            (closeText? quote rest).map fun (value, size) => (unescape escaped :: value, size + 2)
      else (closeText? quote rest).map fun (value, size) => (c :: value, size + 1)

/-- The step at a digit: digits, and a point with further digits if there is one. -/
def numberStep (first : Char) (rest : List Char) : Step :=
  let whole := rest.takeWhile Char.isDigit
  match rest.dropWhile Char.isDigit with
  | '.' :: afterPoint =>
      let fraction := afterPoint.takeWhile Char.isDigit
      .token (.number (Decimal.ofParts (first :: whole) fraction 0).toFloat)
        (whole.length + 1 + fraction.length)
  | _ => .token (.number (Decimal.ofParts (first :: whole) [] 0).toFloat) whole.length

/-- The step at a letter or an underscore: a reserved word or a name. -/
def wordStep (first : Char) (rest : List Char) : Step :=
  let tail := rest.takeWhile isWordPart
  let word := String.ofList (first :: tail)
  match Keyword.ofWord? word with
  | some keyword => .token (.keyword keyword) tail.length
  | none => .token (.word word) tail.length

/-- The step at a quote. -/
def textStep (quote : Char) (rest : List Char) : Step :=
  match closeText? quote rest with
  | some (value, size) => .token (.text (String.ofList value)) size
  | none => .unterminated

/-- The step at any other character: a symbol of two characters if there is one, else of
one. -/
def symbolStep : Char → List Char → Step
  | '=', '=' :: _ => .token (.symbol .equalEqual) 1
  | '!', '=' :: _ => .token (.symbol .notEqual) 1
  | '<', '=' :: _ => .token (.symbol .lessEqual) 1
  | '>', '=' :: _ => .token (.symbol .greaterEqual) 1
  | '&', '&' :: _ => .token (.symbol .andAnd) 1
  | '|', '|' :: _ => .token (.symbol .orOr) 1
  | '=', _ => .token (.symbol .assign) 0
  | '+', _ => .token (.symbol .plus) 0
  | '-', _ => .token (.symbol .minus) 0
  | '*', _ => .token (.symbol .star) 0
  | '/', _ => .token (.symbol .slash) 0
  | '%', _ => .token (.symbol .percent) 0
  | '<', _ => .token (.symbol .less) 0
  | '>', _ => .token (.symbol .greater) 0
  | '!', _ => .token (.symbol .bang) 0
  | '(', _ => .token (.symbol .leftParen) 0
  | ')', _ => .token (.symbol .rightParen) 0
  | '[', _ => .token (.symbol .leftBracket) 0
  | ']', _ => .token (.symbol .rightBracket) 0
  | '{', _ => .token (.symbol .leftBrace) 0
  | '}', _ => .token (.symbol .rightBrace) 0
  | ',', _ => .token (.symbol .comma) 0
  | ':', _ => .token (.symbol .colon) 0
  | '.', _ => .token (.symbol .dot) 0
  | _, _ => .unknown

/-- The step at a character, in front of the rest of the source. -/
def step (first : Char) (rest : List Char) : Step :=
  if isBlank first then .skip 0
  else if first = '#' then .skip (rest.takeWhile (· ≠ '\n')).length
  else if first = '\n' then .token .newline 0
  else if first.isDigit then numberStep first rest
  else if isWordStart first then wordStep first rest
  else if first = '"' ∨ first = '\'' then textStep first rest
  else symbolStep first rest

/-- The tokens of the rest of a source text that starts at a position. -/
def lexFrom (position : Position) : List Char → Lexed
  | [] => ⟨[], .ok position⟩
  | first :: rest =>
      match step first rest with
      | .skip extra => lexFrom (position.after (first :: rest.take extra)) (rest.drop extra)
      | .token kind extra =>
          let later := lexFrom (position.after (first :: rest.take extra)) (rest.drop extra)
          ⟨⟨kind, position⟩ :: later.tokens, later.ending⟩
      | .unknown => ⟨[], .error (.unknownCharacter first position)⟩
      | .unterminated =>
          let last := position.after (first :: rest)
          ⟨[], .error (.unterminatedText last.line position.column)⟩
termination_by text => text.length
decreasing_by all_goals simp only [List.length_drop, List.length_cons]; omega

/-- The tokens of a source text. -/
def lex (source : String) : Lexed :=
  lexFrom .start source.toList

end Lexer

end Bhasha
