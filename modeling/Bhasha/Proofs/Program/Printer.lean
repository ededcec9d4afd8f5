import Bhasha.Proofs.Grammar.Follow
import Bhasha.Proofs.Program.Lines
import Bhasha.Proofs.Token.Spelling

/-!
# Printing programs

A program is printed as tokens, and these are spelled.  Every statement stands on a line of its
own, and blocks stand in braces.  An operand stands in parentheses only if it is looser than what
may stand at its place: at the left of an operator that is its own level, and at the right, since
operators group to the left, the next tighter one.
-/

namespace Bhasha

open Grammar

def UnaryOp.kind : UnaryOp → TokenKind
  | negate => .symbol .minus
  | not => .symbol .bang

def BinaryOp.kind : BinaryOp → TokenKind
  | add => .symbol .plus
  | subtract => .symbol .minus
  | multiply => .symbol .star
  | divide => .symbol .slash
  | modulo => .symbol .percent
  | equal => .symbol .equalEqual
  | notEqual => .symbol .notEqual
  | less => .symbol .less
  | lessEqual => .symbol .lessEqual
  | greater => .symbol .greater
  | greaterEqual => .symbol .greaterEqual

def BinaryOp.level : BinaryOp → Level
  | add | subtract => .additive
  | multiply | divide | modulo => .multiplicative
  | equal | notEqual | less | lessEqual | greater | greaterEqual => .comparison

def LogicalOp.kind : LogicalOp → TokenKind
  | and => .keyword .ra
  | or => .keyword .wa

def LogicalOp.level : LogicalOp → Level
  | and => .conjunction
  | or => .disjunction

def Literal.kind : Literal → TokenKind
  | number value => .number value
  | text value => .text value
  | boolean true => .keyword .satya
  | boolean false => .keyword .asatya
  | null => .keyword .khali

/-- The tightest level of which an expression is a phrase without parentheses. -/
def Expr.level : Expr → Level
  | literal _ _ | var _ _ | list _ _ | record _ _ | call _ _ _ => .primary
  | index _ _ _ | property _ _ _ => .suffixed
  | unary _ _ _ => .unary
  | binary op _ _ _ => op.level
  | logical op _ _ _ => op.level

def Expr.isCall : Expr → Bool
  | call _ _ _ => true
  | _ => false

namespace Printer

def inParentheses (kinds : List TokenKind) : List TokenKind :=
  .symbol .leftParen :: (kinds ++ [.symbol .rightParen])

/-- An operand of a level at a place where phrases of the given rank may stand. -/
def operand (rank : Nat) (level : Level) (kinds : List TokenKind) : List TokenKind :=
  if level.rank < rank then inParentheses kinds else kinds

/-- Items with commas between them, and the closing symbol. -/
def commaList (closing : Symbol) : List (List TokenKind) → List TokenKind
  | [] => [.symbol closing]
  | [item] => item ++ [.symbol closing]
  | item :: rest => item ++ .symbol .comma :: commaList closing rest

theorem commaList_cons_cons (closing : Symbol) (item next : List TokenKind)
    (rest : List (List TokenKind)) :
    commaList closing (item :: next :: rest) =
      item ++ .symbol .comma :: commaList closing (next :: rest) :=
  rfl

/-- A block of lines. -/
def inBraces (lines : List TokenKind) : List TokenKind :=
  .symbol .leftBrace :: .newline :: (lines ++ [.symbol .rightBrace])

end Printer

open Printer

mutual

/-- The tokens of an expression. -/
def Expr.kinds : Expr → List TokenKind
  | .literal value _ => [value.kind]
  | .var name _ => [.word name]
  | .unary op inner _ => op.kind :: operand Level.unary.rank inner.level inner.kinds
  | .binary op left right _ =>
      operand op.level.rank left.level left.kinds ++
        op.kind :: operand (op.level.rank + 1) right.level right.kinds
  | .logical op left right _ =>
      operand op.level.rank left.level left.kinds ++
        op.kind :: operand (op.level.rank + 1) right.level right.kinds
  | .list elements _ =>
      .symbol .leftBracket :: commaList .rightBracket (Expr.kindsOfAll elements)
  | .record entries _ =>
      .symbol .leftBrace :: commaList .rightBrace (Expr.kindsOfEntries entries)
  | .index target position _ =>
      operand Level.suffixed.rank target.level target.kinds ++
        .symbol .leftBracket :: (position.kinds ++ [.symbol .rightBracket])
  | .property target name _ =>
      operand Level.suffixed.rank target.level target.kinds ++ [.symbol .dot, .word name]
  | .call name arguments _ =>
      .word name :: .symbol .leftParen :: commaList .rightParen (Expr.kindsOfAll arguments)

def Expr.kindsOfAll : List Expr → List (List TokenKind)
  | [] => []
  | expr :: rest => expr.kinds :: Expr.kindsOfAll rest

/-- Keys are printed as texts, which any key can be. -/
def Expr.kindsOfEntries : List (String × Expr) → List (List TokenKind)
  | [] => []
  | (key, expr) :: rest =>
      (.text key :: .symbol .colon :: expr.kinds) :: Expr.kindsOfEntries rest

end

theorem Expr.kindsOfAll_eq_map (exprs : List Expr) :
    Expr.kindsOfAll exprs = exprs.map Expr.kinds := by
  induction exprs with
  | nil => rfl
  | cons expr rest ih => simp [Expr.kindsOfAll, ih]

theorem Expr.kindsOfEntries_eq_map (entries : List (String × Expr)) :
    Expr.kindsOfEntries entries =
      entries.map fun entry => .text entry.1 :: .symbol .colon :: entry.2.kinds := by
  induction entries with
  | nil => rfl
  | cons entry rest ih => simp [Expr.kindsOfEntries, ih]

def Stmt.isBranch : Stmt → Bool
  | branch _ _ _ _ => true
  | _ => false

def Expr.kindsOfStep : Option Expr → List TokenKind
  | none => []
  | some step => .keyword .kadam :: step.kinds

def Expr.kindsOfOption : Option Expr → List TokenKind
  | none => []
  | some value => value.kinds

mutual

/-- The tokens of a statement, without the newline behind it. -/
def Stmt.kinds : Stmt → List TokenKind
  | .declare name value _ =>
      .keyword .sathi :: .keyword .yo :: .keyword .ho :: .word name :: .symbol .assign ::
        value.kinds
  | .print value _ => .keyword .sathi :: .keyword .bhana :: inParentheses value.kinds
  | .assign name value _ => .word name :: .symbol .assign :: value.kinds
  | .assignIndex name position value _ =>
      .word name :: .symbol .leftBracket ::
        (position.kinds ++ .symbol .rightBracket :: .symbol .assign :: value.kinds)
  | .assignProperty name property value _ =>
      .word name :: .symbol .dot :: .word property :: .symbol .assign :: value.kinds
  | .branch condition yes no _ =>
      .keyword .yadi ::
        (inParentheses condition.kinds ++ (inBraces (Stmt.kindsOfBlock yes) ++ Stmt.kindsOfElse no))
  | .loop condition body _ =>
      .keyword .jaba :: (inParentheses condition.kinds ++ inBraces (Stmt.kindsOfBlock body))
  | .range counter first bound step body _ =>
      .keyword .prawahit :: .symbol .leftParen :: .word counter :: .keyword .dekhi ::
        (first.kinds ++ .keyword .samma ::
          (bound.kinds ++ (Expr.kindsOfStep step ++ .symbol .rightParen ::
            inBraces (Stmt.kindsOfBlock body))))
  | .define name parameters body _ =>
      .keyword .kaam :: .word name :: .symbol .leftParen ::
        (commaList .rightParen (parameters.map fun parameter => [.word parameter]) ++
          inBraces (Stmt.kindsOfBlock body))
  | .giveBack value _ => .keyword .firta :: Expr.kindsOfOption value
  | .leave _ => [.keyword .thodau]
  | .proceed _ => [.keyword .jari]
  | .attempt body errorName handler _ =>
      .keyword .pryas ::
        (inBraces (Stmt.kindsOfBlock body) ++ .keyword .samatan :: .symbol .leftParen ::
          .word errorName :: .symbol .rightParen :: inBraces (Stmt.kindsOfBlock handler))
  | .expression value _ => value.kinds

/-- Statements, each on a line of its own. -/
def Stmt.kindsOfBlock : List Stmt → List TokenKind
  | [] => []
  | statement :: rest => statement.kinds ++ .newline :: Stmt.kindsOfBlock rest

/-- An alternative that is nothing but another branch goes on with it, without braces. -/
def Stmt.kindsOfElse : Option (List Stmt) → List TokenKind
  | none => []
  | some [] => .keyword .anya :: inBraces []
  | some (statement :: rest) =>
      .keyword .anya ::
        if statement.isBranch && rest.isEmpty then statement.kinds
        else inBraces (statement.kinds ++ .newline :: Stmt.kindsOfBlock rest)

end

/-- The tokens of a program. -/
def Program.kinds (program : Program) : List TokenKind :=
  Stmt.kindsOfBlock program

/-- The source text of a program. -/
def Program.print (style : Style) (program : Program) : String :=
  String.ofList (Lexer.render style program.kinds)

section

variable (label : Nat → Nat)

@[simp] theorem Expr.level_relabel (expr : Expr) : (expr.relabel label).level = expr.level := by
  cases expr <;> rfl

@[simp] theorem Stmt.isBranch_relabel (statement : Stmt) :
    (statement.relabel label).isBranch = statement.isBranch := by
  cases statement <;> rfl

mutual

/-- Lines are not printed. -/
@[simp] theorem Expr.kinds_relabel (expr : Expr) : (expr.relabel label).kinds = expr.kinds := by
  cases expr with
  | literal value line => simp [Expr.relabel, Expr.kinds]
  | var name line => simp [Expr.relabel, Expr.kinds]
  | unary op inner line => simp [Expr.relabel, Expr.kinds, inner.kinds_relabel]
  | binary op left right line =>
      simp [Expr.relabel, Expr.kinds, left.kinds_relabel, right.kinds_relabel]
  | logical op left right line =>
      simp [Expr.relabel, Expr.kinds, left.kinds_relabel, right.kinds_relabel]
  | list elements line => simp [Expr.relabel, Expr.kinds, Expr.kinds_relabelAll elements]
  | record entries line => simp [Expr.relabel, Expr.kinds, Expr.kinds_relabelEntries entries]
  | index target position line =>
      simp [Expr.relabel, Expr.kinds, target.kinds_relabel, position.kinds_relabel]
  | property target name line => simp [Expr.relabel, Expr.kinds, target.kinds_relabel]
  | call name arguments line => simp [Expr.relabel, Expr.kinds, Expr.kinds_relabelAll arguments]

@[simp] theorem Expr.kinds_relabelAll (exprs : List Expr) :
    Expr.kindsOfAll (Expr.relabelAll label exprs) = Expr.kindsOfAll exprs := by
  cases exprs with
  | nil => rfl
  | cons expr rest =>
      simp [Expr.relabelAll, Expr.kindsOfAll, expr.kinds_relabel, Expr.kinds_relabelAll rest]

@[simp] theorem Expr.kinds_relabelEntries (entries : List (String × Expr)) :
    Expr.kindsOfEntries (Expr.relabelEntries label entries) = Expr.kindsOfEntries entries := by
  cases entries with
  | nil => rfl
  | cons entry rest =>
      obtain ⟨key, expr⟩ := entry
      simp [Expr.relabelEntries, Expr.kindsOfEntries, expr.kinds_relabel,
        Expr.kinds_relabelEntries rest]

end

@[simp] theorem Expr.kinds_relabelStep (step : Option Expr) :
    Expr.kindsOfStep (Expr.relabelOption label step) = Expr.kindsOfStep step := by
  cases step <;> simp [Expr.relabelOption, Expr.kindsOfStep]

@[simp] theorem Expr.kinds_relabelOption (value : Option Expr) :
    Expr.kindsOfOption (Expr.relabelOption label value) = Expr.kindsOfOption value := by
  cases value <;> simp [Expr.relabelOption, Expr.kindsOfOption]

mutual

theorem Stmt.kinds_relabel (statement : Stmt) :
    (statement.relabel label).kinds = statement.kinds := by
  cases statement with
  | branch condition yes no line =>
      simp [Stmt.relabel, Stmt.kinds, Stmt.kinds_relabelBlock yes, Stmt.kinds_relabelElse no]
  | loop condition body line => simp [Stmt.relabel, Stmt.kinds, Stmt.kinds_relabelBlock body]
  | range counter first bound step body line =>
      simp [Stmt.relabel, Stmt.kinds, Stmt.kinds_relabelBlock body]
  | define name parameters body line =>
      simp [Stmt.relabel, Stmt.kinds, Stmt.kinds_relabelBlock body]
  | attempt body errorName handler line =>
      simp [Stmt.relabel, Stmt.kinds, Stmt.kinds_relabelBlock body,
        Stmt.kinds_relabelBlock handler]
  | _ => simp [Stmt.relabel, Stmt.kinds]

theorem Stmt.kinds_relabelBlock (block : List Stmt) :
    Stmt.kindsOfBlock (Stmt.relabelBlock label block) = Stmt.kindsOfBlock block := by
  cases block with
  | nil => rfl
  | cons statement rest =>
      simp [Stmt.relabelBlock, Stmt.kindsOfBlock, statement.kinds_relabel,
        Stmt.kinds_relabelBlock rest]

theorem Stmt.kinds_relabelElse (block : Option (List Stmt)) :
    Stmt.kindsOfElse (Stmt.relabelOption label block) = Stmt.kindsOfElse block := by
  cases block with
  | none => rfl
  | some block =>
      cases block with
      | nil => rfl
      | cons statement rest =>
          have hrest : (Stmt.relabelBlock label rest).isEmpty = rest.isEmpty := by
            cases rest <;> rfl
          simp [Stmt.relabelOption, Stmt.relabelBlock, Stmt.kindsOfElse, statement.kinds_relabel,
            Stmt.kinds_relabelBlock rest, hrest]

end

theorem Program.kinds_relabel (program : Program) :
    (program.relabel label).kinds = program.kinds :=
  Stmt.kinds_relabelBlock label program

end

end Bhasha
