import Bhasha.Parser.Expression

/-!
# Reading statements

Statements need no separator between them.  A printing statement and a declaration are opened
by a word of their own, which may also stand in front of any other statement.  Blocks stand in
braces, and newlines may precede their opening brace.  Blocks nest, and as with expressions the
nesting is bounded by the number of tokens.
-/

namespace Bhasha

namespace Parser

/-- The statements in front of a token that ends them, in at most so many rounds. -/
def statementsUpTo (isEnd : TokenClass → Bool) (statement : Parser Stmt) :
    Nat → Parser (List Stmt)
  | 0 => fail .expectedStatement
  | rounds + 1 => do
      skipNewlines
      if isEnd (← current).toClass then return []
      else
        let first ← statement
        let rest ← statementsUpTo isEnd statement rounds
        return first :: rest

def statements (isEnd : TokenClass → Bool) (statement : Parser Stmt) : Parser (List Stmt) := do
  statementsUpTo isEnd statement ((← remaining) + 1)

/-- What the statements of a block end at. -/
def endsBlock : TokenClass → Bool
  | .symbol .rightBrace | .endOfInput => true
  | _ => false

/-- What the statements of a program end at. -/
def endsProgram : TokenClass → Bool
  | .endOfInput => true
  | _ => false

def blockOf (statement : Parser Stmt) : Parser (List Stmt) := do
  skipNewlines
  let _ ← symbol .leftBrace
  let body ← statements endsBlock statement
  let _ ← symbol .rightBrace
  return body

def parenthesized : Parser Expr := do
  let _ ← symbol .leftParen
  let inner ← expression
  let _ ← symbol .rightParen
  return inner

/-- A printing statement, whose opening word stood on the given line. -/
def printing (line : Nat) : Parser Stmt := do
  let _ ← keyword .bhana
  let value ← parenthesized
  return .print value line

/-- A declaration, whose opening word stood on the given line. -/
def declaration (line : Nat) : Parser Stmt := do
  let _ ← keyword .yo
  let _ ← keyword .ho
  let name ← word
  let _ ← symbol .assign
  let value ← expression
  return .declare name value line

/-- What follows the word for else: another branching or a block. -/
def otherwise (statement : Parser Stmt) : Parser (List Stmt) := do
  if ← isAt (.keyword .yadi) then
    let inner ← statement
    return [inner]
  else blockOf statement

/-- A branching.  Newlines after its block are consumed whether or not an alternative
follows. -/
def branching (statement : Parser Stmt) : Parser Stmt := do
  let line := (← keyword .yadi).line
  let condition ← parenthesized
  let yes ← blockOf statement
  skipNewlines
  if ← isAt (.keyword .anya) then
    let _ ← advance
    let no ← otherwise statement
    return .branch condition yes (some no) line
  else return .branch condition yes none line

def looping (statement : Parser Stmt) : Parser Stmt := do
  let line := (← keyword .jaba).line
  let condition ← parenthesized
  let body ← blockOf statement
  return .loop condition body line

/-- The step of a range, if there is one. -/
def rangeStep : Parser (Option Expr) := do
  if ← isAt (.keyword .kadam) then
    let _ ← advance
    let step ← expression
    return some step
  else return none

def ranging (statement : Parser Stmt) : Parser Stmt := do
  let line := (← keyword .prawahit).line
  let _ ← symbol .leftParen
  let counter ← word
  let _ ← keyword .dekhi
  let first ← expression
  let _ ← keyword .samma
  let bound ← expression
  let step ← rangeStep
  let _ ← symbol .rightParen
  let body ← blockOf statement
  return .range counter first bound step body line

def definition (statement : Parser Stmt) : Parser Stmt := do
  let line := (← keyword .kaam).line
  let name ← word
  let _ ← symbol .leftParen
  let parameters ← commaList .rightParen word
  let body ← blockOf statement
  return .define name parameters body line

/-- Whether a token ends a return without a value. -/
def endsReturn : TokenClass → Bool
  | .newline | .endOfInput | .symbol .rightBrace => true
  | _ => false

/-- A return, with a value unless the line, the block or the source ends at once. -/
def returning : Parser Stmt := do
  let line := (← keyword .firta).line
  if endsReturn (← current).toClass then return .giveBack none line
  else
    let value ← expression
    return .giveBack (some value) line

def attempting (statement : Parser Stmt) : Parser Stmt := do
  let line := (← keyword .pryas).line
  let body ← blockOf statement
  skipNewlines
  let _ ← keyword .samatan
  let _ ← symbol .leftParen
  let errorName ← word
  let _ ← symbol .rightParen
  let handler ← blockOf statement
  return .attempt body errorName handler line

/-- A statement that starts with a name: an assignment or a call. -/
def naming : Parser Stmt := do
  let line := (← current).line
  let name ← word
  match (← current).kind with
  | .symbol .assign =>
      let _ ← advance
      let value ← expression
      return .assign name value line
  | .symbol .leftBracket =>
      let _ ← advance
      let position ← expression
      let _ ← symbol .rightBracket
      let _ ← symbol .assign
      let value ← expression
      return .assignIndex name position value line
  | .symbol .dot =>
      let _ ← advance
      let property ← word
      let _ ← symbol .assign
      let value ← expression
      return .assignProperty name property value line
  | .symbol .leftParen =>
      let call ← callOf expression name line
      return .expression call line
  | _ => fail .unexpectedAfterWord

/-- A statement without an opening word, in terms of the statements inside it. -/
def unopened (statement : Parser Stmt) : Parser Stmt := do
  let token ← current
  match token.kind with
  | .keyword .yadi => branching statement
  | .keyword .jaba => looping statement
  | .keyword .prawahit => ranging statement
  | .keyword .kaam => definition statement
  | .keyword .firta => returning
  | .keyword .thodau =>
      let _ ← advance
      return .leave token.line
  | .keyword .jari =>
      let _ ← advance
      return .proceed token.line
  | .keyword .pryas => attempting statement
  | .word _ => naming
  | _ => fail .expectedStatement

/-- Whether a statement without an opening word starts with a token. -/
def startsUnopened : TokenClass → Bool
  | .keyword .yadi | .keyword .jaba | .keyword .prawahit | .keyword .kaam | .keyword .firta
  | .keyword .thodau | .keyword .jari | .keyword .pryas | .word => true
  | _ => false

/-- A statement after its opening word, which stood on the given line. -/
def opened (statement : Parser Stmt) (line : Nat) : Parser Stmt := do
  let found := (← current).toClass
  if found = .keyword .bhana then printing line
  else if found = .keyword .yo then declaration line
  else if startsUnopened found then unopened statement
  else fail .expectedStatementKeyword

/-- A statement, in terms of the statements inside it. -/
def statementOf (statement : Parser Stmt) : Parser Stmt := do
  let token ← current
  if token.toClass = .keyword .sathi then
    let _ ← advance
    opened statement token.line
  else unopened statement

/-- A statement that is nested less deep than the given bound. -/
def statementWithin : Nat → Parser Stmt
  | 0 => fail .expectedStatement
  | depth + 1 => statementOf (statementWithin depth)

def statement : Parser Stmt := do
  statementWithin ((← remaining) + 1)

def block : Parser (List Stmt) :=
  blockOf statement

def program : Parser Program :=
  statements endsProgram statement

/-- What a parser reads from the front of a source text. -/
def readFront {α : Type} (parser : Parser α) (source : String) : Except ParseError α := do
  let input ← (Lexer.lex source).settle
  let (result, _) ← parser input
  return result

end Parser

/-- The program that a source text spells. -/
def Program.parse (source : String) : Except ParseError Program :=
  Parser.readFront Parser.program source

end Bhasha
