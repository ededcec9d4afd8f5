import Bhasha.Proofs.Grammar.Expression

/-!
# The grammar of statements and programs

A statement may have an opening word, which printing and declaring require.  Statements need no
separator; a return has a value unless the line, the block or the input ends at once.
-/

namespace Bhasha

namespace Grammar

/-- Whether an opening word may stand in front of a statement. -/
inductive Form where
  | any
  | unopened

def Parenthesized (input rest : List Token) (tree : Expr) : Prop :=
  ∃ opening closing inner,
    input = ⟨.symbol .leftParen, opening⟩ :: inner ∧
      Expression .disjunction inner (⟨.symbol .rightParen, closing⟩ :: rest) tree

/-- The line, the block or the input ends. -/
def EndsReturn : List Token → Prop
  | [] => True
  | token :: _ =>
      token.kind = .newline ∨ token.kind = .endOfInput ∨ token.kind = .symbol .rightBrace

/-- The step of a range, which may be missing. -/
inductive RangeStep : List Token → List Token → Option Expr → Prop where
  | none {rest : List Token} : RangeStep rest rest none
  | some {position : Position} {input rest : List Token} {step : Expr} :
      Expression .disjunction input rest step →
      RangeStep (⟨.keyword .kadam, position⟩ :: input) rest (some step)

/-- The statements of a form: a statement stands between the two token lists and spells the
tree. -/
inductive Statement : Form → List Token → List Token → Stmt → Prop where
  | bare {input rest : List Token} {tree : Stmt} :
      Statement .unopened input rest tree → Statement .any input rest tree
  | opened {position : Position} {input rest : List Token} {tree : Stmt} :
      Statement .unopened input rest tree →
      Statement .any (⟨.keyword .sathi, position⟩ :: input) rest tree
  | print {position verb : Position} {input rest : List Token} {value : Expr} :
      Parenthesized input rest value →
      Statement .any (⟨.keyword .sathi, position⟩ :: ⟨.keyword .bhana, verb⟩ :: input) rest
        (.print value position.line)
  | declare {position yo ho word sign : Position} {name : String} {input rest : List Token}
      {value : Expr} :
      Expression .disjunction input rest value →
      Statement .any
        (⟨.keyword .sathi, position⟩ :: ⟨.keyword .yo, yo⟩ :: ⟨.keyword .ho, ho⟩ ::
          ⟨.word name, word⟩ :: ⟨.symbol .assign, sign⟩ :: input)
        rest (.declare name value position.line)
  | branch {position : Position} {input middle rest : List Token} {condition : Expr}
      {yes : List (Piece Stmt)} :
      Parenthesized input middle condition → Braced middle yes rest →
      (∀ piece ∈ yes, Statement .any piece.start piece.stop piece.tree) →
      Statement .unopened (⟨.keyword .yadi, position⟩ :: input) rest
        (.branch condition (yes.map Piece.tree) none position.line)
  | branchElse {position other : Position} {input middle behind alternative rest : List Token}
      {condition : Expr} {yes no : List (Piece Stmt)} :
      Parenthesized input middle condition → Braced middle yes behind →
      (∀ piece ∈ yes, Statement .any piece.start piece.stop piece.tree) →
      Newlines behind (⟨.keyword .anya, other⟩ :: alternative) → Braced alternative no rest →
      (∀ piece ∈ no, Statement .any piece.start piece.stop piece.tree) →
      Statement .unopened (⟨.keyword .yadi, position⟩ :: input) rest
        (.branch condition (yes.map Piece.tree) (some (no.map Piece.tree)) position.line)
  | branchElseIf {position other again : Position} {input middle behind alternative rest : List Token}
      {condition : Expr} {yes : List (Piece Stmt)} {no : Stmt} :
      Parenthesized input middle condition → Braced middle yes behind →
      (∀ piece ∈ yes, Statement .any piece.start piece.stop piece.tree) →
      Newlines behind (⟨.keyword .anya, other⟩ :: ⟨.keyword .yadi, again⟩ :: alternative) →
      Statement .unopened (⟨.keyword .yadi, again⟩ :: alternative) rest no →
      Statement .unopened (⟨.keyword .yadi, position⟩ :: input) rest
        (.branch condition (yes.map Piece.tree) (some [no]) position.line)
  | loop {position : Position} {input middle rest : List Token} {condition : Expr}
      {body : List (Piece Stmt)} :
      Parenthesized input middle condition → Braced middle body rest →
      (∀ piece ∈ body, Statement .any piece.start piece.stop piece.tree) →
      Statement .unopened (⟨.keyword .jaba, position⟩ :: input) rest
        (.loop condition (body.map Piece.tree) position.line)
  | range {position opening word dekhi samma closing : Position} {counter : String}
      {input second third fourth rest : List Token} {first bound : Expr} {step : Option Expr}
      {body : List (Piece Stmt)} :
      Expression .disjunction input (⟨.keyword .samma, samma⟩ :: second) first →
      Expression .disjunction second third bound →
      RangeStep third (⟨.symbol .rightParen, closing⟩ :: fourth) step →
      Braced fourth body rest →
      (∀ piece ∈ body, Statement .any piece.start piece.stop piece.tree) →
      Statement .unopened
        (⟨.keyword .prawahit, position⟩ :: ⟨.symbol .leftParen, opening⟩ :: ⟨.word counter, word⟩ ::
          ⟨.keyword .dekhi, dekhi⟩ :: input)
        rest (.range counter first bound step (body.map Piece.tree) position.line)
  | define {position word opening : Position} {name : String} {parameters : List String}
      {input middle rest : List Token} {body : List (Piece Stmt)} :
      CommaList .rightParen Word input middle parameters → Braced middle body rest →
      (∀ piece ∈ body, Statement .any piece.start piece.stop piece.tree) →
      Statement .unopened
        (⟨.keyword .kaam, position⟩ :: ⟨.word name, word⟩ :: ⟨.symbol .leftParen, opening⟩ :: input)
        rest (.define name parameters (body.map Piece.tree) position.line)
  | giveBack {position : Position} {rest : List Token} :
      EndsReturn rest →
      Statement .unopened (⟨.keyword .firta, position⟩ :: rest) rest (.giveBack none position.line)
  | giveBackValue {position : Position} {input rest : List Token} {value : Expr} :
      Expression .disjunction input rest value →
      Statement .unopened (⟨.keyword .firta, position⟩ :: input) rest
        (.giveBack (some value) position.line)
  | leave {position : Position} {rest : List Token} :
      Statement .unopened (⟨.keyword .thodau, position⟩ :: rest) rest (.leave position.line)
  | proceed {position : Position} {rest : List Token} :
      Statement .unopened (⟨.keyword .jari, position⟩ :: rest) rest (.proceed position.line)
  | attempt {position samatan opening word closing : Position} {errorName : String}
      {input behind clause rest : List Token} {body handler : List (Piece Stmt)} :
      Braced input body behind →
      (∀ piece ∈ body, Statement .any piece.start piece.stop piece.tree) →
      Newlines behind
        (⟨.keyword .samatan, samatan⟩ :: ⟨.symbol .leftParen, opening⟩ :: ⟨.word errorName, word⟩ ::
          ⟨.symbol .rightParen, closing⟩ :: clause) →
      Braced clause handler rest →
      (∀ piece ∈ handler, Statement .any piece.start piece.stop piece.tree) →
      Statement .unopened (⟨.keyword .pryas, position⟩ :: input) rest
        (.attempt (body.map Piece.tree) errorName (handler.map Piece.tree) position.line)
  | assign {position sign : Position} {name : String} {input rest : List Token} {value : Expr} :
      Expression .disjunction input rest value →
      Statement .unopened (⟨.word name, position⟩ :: ⟨.symbol .assign, sign⟩ :: input) rest
        (.assign name value position.line)
  | assignIndex {position opening closing sign : Position} {name : String}
      {input middle rest : List Token} {place value : Expr} :
      Expression .disjunction input
        (⟨.symbol .rightBracket, closing⟩ :: ⟨.symbol .assign, sign⟩ :: middle) place →
      Expression .disjunction middle rest value →
      Statement .unopened (⟨.word name, position⟩ :: ⟨.symbol .leftBracket, opening⟩ :: input) rest
        (.assignIndex name place value position.line)
  | assignProperty {position dot word sign : Position} {name property : String}
      {input rest : List Token} {value : Expr} :
      Expression .disjunction input rest value →
      Statement .unopened
        (⟨.word name, position⟩ :: ⟨.symbol .dot, dot⟩ :: ⟨.word property, word⟩ ::
          ⟨.symbol .assign, sign⟩ :: input)
        rest (.assignProperty name property value position.line)
  | call {position : Position} {name : String} {arguments : List Expr} {input rest : List Token} :
      Expression .primary (⟨.word name, position⟩ :: input) rest
        (.call name arguments position.line) →
      Statement .unopened (⟨.word name, position⟩ :: input) rest
        (.expression (.call name arguments position.line) position.line)

theorem Statement.unopened_of_yadi {position : Position} {input rest : List Token} {tree : Stmt}
    (h : Statement .any (⟨.keyword .yadi, position⟩ :: input) rest tree) :
    Statement .unopened (⟨.keyword .yadi, position⟩ :: input) rest tree := by
  cases h with
  | bare hphrase => exact hphrase

def Block (input rest : List Token) (trees : List Stmt) : Prop :=
  ∃ pieces : List (Piece Stmt),
    Braced input pieces rest ∧
      (∀ piece ∈ pieces, Statement .any piece.start piece.stop piece.tree) ∧
      trees = pieces.map Piece.tree

/-- A statement with any number of newlines behind it. -/
def Trailed (form : Form) (input rest : List Token) (tree : Stmt) : Prop :=
  ∃ behind, Statement form input behind tree ∧ Newlines behind rest

/-- A program is statements up to the end of the input, with newlines around them. -/
def Program (tokens : List Token) (program : Bhasha.Program) : Prop :=
  ∃ pieces : List (Piece Stmt),
    Lines tokens pieces [] ∧
      (∀ piece ∈ pieces, Statement .any piece.start piece.stop piece.tree) ∧
      program = pieces.map Piece.tree

end Grammar

end Bhasha
