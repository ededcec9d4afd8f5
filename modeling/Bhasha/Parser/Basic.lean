import Bhasha.Program.ParseError

/-!
# Parsers over tokens

A parser reads some tokens off the front of its input, or fails.  It decides by the current
token alone.  When the source text has a lexical error, that error is raised where the last
token before it is consumed, so an earlier token that does not fit is reported first.

Repetition is bounded by the number of tokens left, since every round consumes one at least.
-/

namespace Bhasha

namespace Lexed

/-- The token at the front; after the last one, the end of the input. -/
def current (input : Lexed) : Token :=
  match input.tokens, input.ending with
  | token :: _, _ => token
  | [], .ok position => ⟨.endOfInput, position⟩
  | [], .error _ => ⟨.endOfInput, .start⟩

/-- Input that has no token left but should raise a lexical error does so. -/
def settle (input : Lexed) : Except ParseError Lexed :=
  match input.tokens, input.ending with
  | [], .error error => .error (.lexical error)
  | _, _ => .ok input

end Lexed

/-- A reader of tokens. -/
abbrev Parser := StateT Lexed (Except ParseError)

namespace Parser

variable {α : Type}

/-- The token at the front, which stays there. -/
def current : Parser Token := fun input =>
  .ok (input.current, input)

def remaining : Parser Nat := fun input =>
  .ok (input.tokens.length, input)

/-- Fails at the current token. -/
def fail (cause : TokenClass → SyntaxCause) : Parser α := fun input =>
  .error (.grammar ⟨cause input.current.toClass, input.current.line⟩)

def advance : Parser Token := fun input => do
  let next ← Lexed.settle { input with tokens := input.tokens.tail }
  .ok (input.current, next)

def skipNewlines : Parser Unit := fun input => do
  let next ← Lexed.settle { input with tokens := input.tokens.dropWhile (·.kind = .newline) }
  .ok ((), next)

/-- Whether the current token has a class. -/
def isAt (expected : TokenClass) : Parser Bool := do
  return (← current).toClass = expected

/-- Consumes a token of the required class. -/
def expect (expected : TokenClass) : Parser Token := do
  if ← isAt expected then advance else fail (.unexpectedToken expected)

def symbol (expected : Symbol) : Parser Token :=
  expect (.symbol expected)

def keyword (expected : Keyword) : Parser Token :=
  expect (.keyword expected)

/-- Consumes a word, and returns its name. -/
def word : Parser String := do
  match (← current).kind with
  | .word name =>
      let _ ← advance
      return name
  | _ => fail (.unexpectedToken .word)

/-- The items up to a closing symbol, in at most so many rounds.  Items are parted by commas, a
comma may follow the last one, and newlines may stand around every item. -/
def itemsUpTo (closing : Symbol) (item : Parser α) : Nat → Parser (List α)
  | 0 => fail (.unexpectedToken (.symbol closing))
  | rounds + 1 => do
      skipNewlines
      if ← isAt (.symbol closing) then
        let _ ← advance
        return []
      else
        let first ← item
        skipNewlines
        if ← isAt (.symbol .comma) then
          let _ ← advance
          let rest ← itemsUpTo closing item rounds
          return first :: rest
        else
          let _ ← symbol closing
          return [first]

def commaList (closing : Symbol) (item : Parser α) : Parser (List α) := do
  itemsUpTo closing item ((← remaining) + 1)

end Parser

end Bhasha
