import Bhasha.Position

/-!
# Tokens

The words of the language and the tokens that its source texts consist of.  A token has a kind
and the position of its first character.  Kinds carry the value of a literal or the name of a
word; their classes forget it, and a class has the name by which error messages call it.
-/

namespace Bhasha

/-- The reserved words.  Each constructor is spelled as the word itself. -/
inductive Keyword where
  /-- Opens a statement. -/
  | sathi
  /-- Opens a declaration. -/
  | yo
  /-- Stands before the declared name. -/
  | ho
  /-- Prints. -/
  | bhana
  /-- If. -/
  | yadi
  /-- Else. -/
  | anya
  /-- While. -/
  | jaba
  /-- Opens a loop over a range. -/
  | prawahit
  /-- From. -/
  | dekhi
  /-- Up to. -/
  | samma
  /-- Step. -/
  | kadam
  /-- Defines a function. -/
  | kaam
  /-- Return. -/
  | firta
  /-- Leaves a loop. -/
  | thodau
  /-- Goes on with the next round of a loop. -/
  | jari
  /-- Try. -/
  | pryas
  /-- Catch. -/
  | samatan
  /-- True. -/
  | satya
  /-- False. -/
  | asatya
  /-- Null. -/
  | khali
  /-- And. -/
  | ra
  /-- Or. -/
  | wa
  /-- Not. -/
  | hoina
  /-- In; reserved, and used by no statement. -/
  | ma
deriving DecidableEq

namespace Keyword

def all : List Keyword :=
  [sathi, yo, ho, bhana, yadi, anya, jaba, prawahit, dekhi, samma, kadam, kaam, firta, thodau,
    jari, pryas, samatan, satya, asatya, khali, ra, wa, hoina, ma]

def spelling : Keyword → String
  | sathi => "sathi"
  | yo => "yo"
  | ho => "ho"
  | bhana => "bhana"
  | yadi => "yadi"
  | anya => "anya"
  | jaba => "jaba"
  | prawahit => "prawahit"
  | dekhi => "dekhi"
  | samma => "samma"
  | kadam => "kadam"
  | kaam => "kaam"
  | firta => "firta"
  | thodau => "thodau"
  | jari => "jari"
  | pryas => "pryas"
  | samatan => "samatan"
  | satya => "satya"
  | asatya => "asatya"
  | khali => "khali"
  | ra => "ra"
  | wa => "wa"
  | hoina => "hoina"
  | ma => "ma"

/-- What error messages call a reserved word. -/
def name : Keyword → String
  | sathi => "SATHI"
  | yo => "YO"
  | ho => "HO"
  | bhana => "BHANA"
  | yadi => "IF"
  | anya => "ELSE"
  | jaba => "WHILE"
  | prawahit => "FOR"
  | dekhi => "FROM"
  | samma => "TO"
  | kadam => "STEP"
  | kaam => "FUNCTION"
  | firta => "RETURN"
  | thodau => "BREAK"
  | jari => "CONTINUE"
  | pryas => "TRY"
  | samatan => "CATCH"
  | satya => "TRUE"
  | asatya => "FALSE"
  | khali => "NULL"
  | ra => "AND"
  | wa => "OR"
  | hoina => "NOT"
  | ma => "IN"

/-- The reserved word with a spelling. -/
def ofWord? (word : String) : Option Keyword :=
  all.find? (·.spelling == word)

end Keyword

/-- The operators and the punctuation. -/
inductive Symbol where
  | equalEqual
  | notEqual
  | lessEqual
  | greaterEqual
  | andAnd
  | orOr
  | assign
  | plus
  | minus
  | star
  | slash
  | percent
  | less
  | greater
  | bang
  | leftParen
  | rightParen
  | leftBracket
  | rightBracket
  | leftBrace
  | rightBrace
  | comma
  | colon
  | dot
deriving DecidableEq

namespace Symbol

def all : List Symbol :=
  [equalEqual, notEqual, lessEqual, greaterEqual, andAnd, orOr, assign, plus, minus, star, slash,
    percent, less, greater, bang, leftParen, rightParen, leftBracket, rightBracket, leftBrace,
    rightBrace, comma, colon, dot]

def spelling : Symbol → String
  | equalEqual => "=="
  | notEqual => "!="
  | lessEqual => "<="
  | greaterEqual => ">="
  | andAnd => "&&"
  | orOr => "||"
  | assign => "="
  | plus => "+"
  | minus => "-"
  | star => "*"
  | slash => "/"
  | percent => "%"
  | less => "<"
  | greater => ">"
  | bang => "!"
  | leftParen => "("
  | rightParen => ")"
  | leftBracket => "["
  | rightBracket => "]"
  | leftBrace => "\x7b"
  | rightBrace => "\x7d"
  | comma => ","
  | colon => ":"
  | dot => "."

/-- What error messages call a symbol. -/
def name : Symbol → String
  | equalEqual => "EQ"
  | notEqual => "NE"
  | lessEqual => "LE"
  | greaterEqual => "GE"
  | andAnd => "AND_OP"
  | orOr => "OR_OP"
  | assign => "ASSIGN"
  | plus => "PLUS"
  | minus => "MINUS"
  | star => "MUL"
  | slash => "DIV"
  | percent => "MOD"
  | less => "LT"
  | greater => "GT"
  | bang => "NOT_OP"
  | leftParen => "LPAREN"
  | rightParen => "RPAREN"
  | leftBracket => "LBRACKET"
  | rightBracket => "RBRACKET"
  | leftBrace => "LBRACE"
  | rightBrace => "RBRACE"
  | comma => "COMMA"
  | colon => "COLON"
  | dot => "DOT"

end Symbol

/-- What a token is, its value or name left aside. -/
inductive TokenClass where
  | number
  | text
  | word
  | keyword (reserved : Keyword)
  | symbol (mark : Symbol)
  | newline
  | endOfInput
deriving DecidableEq

/-- What error messages call a class of tokens. -/
def TokenClass.name : TokenClass → String
  | number => "NUMBER"
  | text => "STRING"
  | word => "ID"
  | keyword reserved => reserved.name
  | symbol mark => mark.name
  | newline => "NEWLINE"
  | endOfInput => "EOF"

/-- What a token is, with the value of a literal and the name of a word. -/
inductive TokenKind where
  | number (value : Float)
  | text (value : String)
  | word (name : String)
  | keyword (reserved : Keyword)
  | symbol (mark : Symbol)
  | newline
  | endOfInput
deriving DecidableEq

def TokenKind.toClass : TokenKind → TokenClass
  | number _ => .number
  | text _ => .text
  | word _ => .word
  | keyword reserved => .keyword reserved
  | symbol mark => .symbol mark
  | newline => .newline
  | endOfInput => .endOfInput

/-- A token and the position of its first character. -/
structure Token where
  kind : TokenKind
  position : Position
deriving DecidableEq

namespace Token

def line (token : Token) : Nat :=
  token.position.line

def toClass (token : Token) : TokenClass :=
  token.kind.toClass

end Token

end Bhasha
