import Bhasha.Proofs.Program.Lines
import Bhasha.Proofs.Program.Places

/-!
# Trees in source order

A tree is in source order if its lines do not decrease from left to right, as far as the lines of
its nodes tell.  The line of an operator stands between those of its operands, the line of an index
or a property behind those of its target, and the line of any other node in front of everything
inside it.
-/

namespace Bhasha

/-- Nothing of the left expression stands on a later line than anything of the right one. -/
def Expr.Before (left right : Expr) : Prop :=
  ∀ line ∈ left.lines, ∀ later ∈ right.lines, line ≤ later

mutual

/-- The lines of an expression follow the source, and so do those of all expressions inside it. -/
def Expr.InOrder : Expr → Prop
  | .literal _ _ => True
  | .var _ _ => True
  | .unary _ operand line => (∀ inner ∈ operand.lines, line ≤ inner) ∧ operand.InOrder
  | .binary _ left right line =>
      (∀ inner ∈ left.lines, inner ≤ line) ∧ (∀ inner ∈ right.lines, line ≤ inner) ∧
        left.InOrder ∧ right.InOrder
  | .logical _ left right line =>
      (∀ inner ∈ left.lines, inner ≤ line) ∧ (∀ inner ∈ right.lines, line ≤ inner) ∧
        left.InOrder ∧ right.InOrder
  | .list elements line =>
      (∀ inner ∈ Expr.linesOfAll elements, line ≤ inner) ∧ elements.Pairwise Expr.Before ∧
        Expr.AllInOrder elements
  | .record entries line =>
      (∀ inner ∈ Expr.linesOfEntries entries, line ≤ inner) ∧
        (entries.map Prod.snd).Pairwise Expr.Before ∧ Expr.EntriesInOrder entries
  | .index target position line =>
      (∀ inner ∈ target.lines, inner ≤ line) ∧ (∀ inner ∈ position.lines, line ≤ inner) ∧
        target.InOrder ∧ position.InOrder
  | .property target _ line => (∀ inner ∈ target.lines, inner ≤ line) ∧ target.InOrder
  | .call _ arguments line =>
      (∀ inner ∈ Expr.linesOfAll arguments, line ≤ inner) ∧ arguments.Pairwise Expr.Before ∧
        Expr.AllInOrder arguments

def Expr.AllInOrder : List Expr → Prop
  | [] => True
  | expr :: rest => expr.InOrder ∧ Expr.AllInOrder rest

def Expr.EntriesInOrder : List (String × Expr) → Prop
  | [] => True
  | (_, expr) :: rest => expr.InOrder ∧ Expr.EntriesInOrder rest

end

/-- The expressions that a statement evaluates itself, not those of its blocks. -/
def Stmt.expressions : Stmt → List Expr
  | .declare _ value _ | .print value _ | .assign _ value _ | .assignProperty _ _ value _
  | .expression value _ => [value]
  | .assignIndex _ position value _ => [position, value]
  | .branch condition _ _ _ | .loop condition _ _ => [condition]
  | .range _ first bound step _ _ => first :: bound :: step.toList
  | .giveBack value _ => value.toList
  | .define .. | .leave .. | .proceed .. | .attempt .. => []

/-- The lines of the statements of a list do not decrease. -/
def Stmt.Successive (block : List Stmt) : Prop :=
  block.Pairwise (·.line ≤ ·.line)

/-- A statement in source order, its blocks taken as lists of statements only. -/
structure Stmt.InOrder (statement : Stmt) : Prop where
  first : ∀ line ∈ statement.lines, statement.line ≤ line
  blocks : ∀ region block, (region, block) ∈ statement.blocks → Stmt.Successive block
  expressions : ∀ expr ∈ statement.expressions, expr.InOrder

/-- A program in source order, with every statement in it at any depth. -/
structure Program.InOrder (program : Program) : Prop where
  successive : Stmt.Successive program
  statements : ∀ statement, Occurs (fun _ => True) statement program → statement.InOrder

theorem Expr.allInOrder_iff {exprs : List Expr} :
    Expr.AllInOrder exprs ↔ ∀ expr ∈ exprs, expr.InOrder := by
  induction exprs with
  | nil => simp [Expr.AllInOrder]
  | cons expr rest ih => simp [Expr.AllInOrder, ih]

theorem Expr.entriesInOrder_iff {entries : List (String × Expr)} :
    Expr.EntriesInOrder entries ↔ ∀ entry ∈ entries, entry.2.InOrder := by
  induction entries with
  | nil => simp [Expr.EntriesInOrder]
  | cons entry rest ih => simp [Expr.EntriesInOrder, ih]

end Bhasha
