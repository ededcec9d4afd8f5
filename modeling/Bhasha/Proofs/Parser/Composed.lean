import Bhasha.Parser.Statement

/-!
# What parsers are put together from

Every parser of the language is put together from a few basic ones: it looks at the current token,
counts the tokens left, takes a token or some newlines off the front, or fails.  So a property of
parsers that the basic ones have, and that two parsers in a row have if each of them does, is a
property of them all.
-/

namespace Bhasha

namespace Parser

/-- A parser that is put together from the basic ones. -/
inductive Composed : {α : Type} → Parser α → Prop where
  | pure {α : Type} (value : α) : Composed (pure value)
  | bind {α β : Type} {first : Parser α} {next : α → Parser β} :
      Composed first → (∀ value, Composed (next value)) → Composed (first >>= next)
  | current : Composed current
  | remaining : Composed remaining
  | fail {α : Type} (cause : TokenClass → SyntaxCause) : Composed (fail cause : Parser α)
  | advance : Composed advance
  | skipNewlines : Composed skipNewlines

variable {α : Type}

theorem composed_isAt (expected : TokenClass) : Composed (isAt expected) :=
  Composed.current.bind fun _ => .pure _

theorem composed_expect (expected : TokenClass) : Composed (expect expected) := by
  refine (composed_isAt expected).bind fun found => ?_
  split
  · exact Composed.advance
  · exact .fail _

theorem composed_symbol (expected : Symbol) : Composed (symbol expected) :=
  composed_expect _

theorem composed_keyword (expected : Keyword) : Composed (keyword expected) :=
  composed_expect _

theorem composed_word : Composed word := by
  refine Composed.current.bind fun token => ?_
  split
  · exact Composed.advance.bind fun _ => .pure _
  · exact .fail _

theorem composed_itemsUpTo {item : Parser α} (hitem : Composed item) (closing : Symbol)
    (rounds : Nat) : Composed (itemsUpTo closing item rounds) := by
  induction rounds with
  | zero => exact .fail _
  | succ rounds ih =>
      refine Composed.skipNewlines.bind fun _ => (composed_isAt _).bind fun closed => ?_
      split
      · exact Composed.advance.bind fun _ => .pure _
      · refine hitem.bind fun first => Composed.skipNewlines.bind fun _ => ?_
        refine (composed_isAt _).bind fun comma => ?_
        split
        · exact Composed.advance.bind fun _ => ih.bind fun rest => .pure _
        · exact (composed_symbol closing).bind fun _ => .pure _

theorem composed_commaList {item : Parser α} (hitem : Composed item) (closing : Symbol) :
    Composed (commaList closing item) :=
  Composed.remaining.bind fun count => composed_itemsUpTo hitem closing (count + 1)

section

variable {expression : Parser Expr} (hexpression : Composed expression)

theorem composed_joinFrom {operand : Parser Expr} (hoperand : Composed operand) (joiner : Joiner)
    (rounds : Nat) (left : Expr) : Composed (joinFrom joiner operand rounds left) := by
  induction rounds generalizing left with
  | zero => exact .pure left
  | succ rounds ih =>
      refine Composed.current.bind fun token => ?_
      split
      · exact .pure left
      · exact Composed.advance.bind fun _ => hoperand.bind fun right => ih _

theorem composed_joined {operand : Parser Expr} (hoperand : Composed operand)
    (joiner : Joiner) : Composed (joined joiner operand) :=
  hoperand.bind fun first => Composed.remaining.bind fun count =>
    composed_joinFrom hoperand joiner count first

include hexpression

theorem composed_callOf (name : String) (line : Nat) :
    Composed (callOf expression name line) := by
  refine (composed_symbol _).bind fun _ => ?_
  exact (composed_commaList hexpression _).bind fun arguments => .pure _

theorem composed_entry : Composed (entry expression) := by
  have hkey : Composed entryKey := by
    refine Composed.current.bind fun token => ?_
    split
    · exact Composed.advance.bind fun _ => .pure _
    · exact composed_word
  refine hkey.bind fun key => (composed_symbol _).bind fun _ => ?_
  exact Composed.skipNewlines.bind fun _ => hexpression.bind fun value => .pure _

theorem composed_primary : Composed (primary expression) := by
  have hconstant : ∀ value line, Composed (constant value line) :=
    fun value line => Composed.advance.bind fun _ => .pure _
  refine Composed.current.bind fun token => ?_
  simp only
  split
  · exact hconstant _ _
  · exact hconstant _ _
  · exact hconstant _ _
  · exact hconstant _ _
  · exact hconstant _ _
  · refine Composed.advance.bind fun _ => (composed_isAt _).bind fun called => ?_
    split
    · exact composed_callOf hexpression _ _
    · exact .pure _
  · refine Composed.advance.bind fun _ => ?_
    exact (composed_commaList hexpression _).bind fun elements => .pure _
  · refine Composed.advance.bind fun _ => ?_
    exact (composed_commaList (composed_entry hexpression) _).bind fun entries => .pure _
  · refine Composed.advance.bind fun _ => hexpression.bind fun inner => ?_
    exact (composed_symbol _).bind fun _ => .pure _
  · exact .fail _

theorem composed_suffixes (rounds : Nat) (target : Expr) :
    Composed (suffixes expression rounds target) := by
  induction rounds generalizing target with
  | zero => exact .pure target
  | succ rounds ih =>
      refine Composed.current.bind fun token => ?_
      split
      · refine Composed.advance.bind fun _ => hexpression.bind fun position => ?_
        exact (composed_symbol _).bind fun _ => ih _
      · exact Composed.advance.bind fun _ => composed_word.bind fun name => ih _
      · exact .pure target

theorem composed_suffixed : Composed (suffixed expression) :=
  (composed_primary hexpression).bind fun target =>
    Composed.remaining.bind fun count => composed_suffixes hexpression count target

theorem composed_signed (rounds : Nat) : Composed (signed expression rounds) := by
  induction rounds with
  | zero => exact composed_suffixed hexpression
  | succ rounds ih =>
      refine Composed.current.bind fun token => ?_
      split
      · exact composed_suffixed hexpression
      · exact Composed.advance.bind fun _ => ih.bind fun operand => .pure _

theorem composed_unary : Composed (unary expression) :=
  Composed.remaining.bind fun count => composed_signed hexpression count

theorem composed_disjunction : Composed (disjunction expression) := by
  have hmultiplicative : Composed (multiplicative expression) :=
    composed_joined (composed_unary hexpression) _
  have hadditive : Composed (additive expression) := composed_joined hmultiplicative _
  have hcomparison : Composed (comparison expression) := composed_joined hadditive _
  have hconjunction : Composed (conjunction expression) := composed_joined hcomparison _
  exact composed_joined hconjunction _

end

theorem composed_expressionWithin (depth : Nat) : Composed (expressionWithin depth) := by
  induction depth with
  | zero => exact .fail _
  | succ depth ih => exact composed_disjunction ih

theorem composed_expression : Composed expression :=
  Composed.remaining.bind fun count => composed_disjunction (composed_expressionWithin count)

theorem composed_parenthesized : Composed parenthesized :=
  (composed_symbol _).bind fun _ => composed_expression.bind fun inner =>
    (composed_symbol _).bind fun _ => .pure inner

theorem composed_naming : Composed naming := by
  refine Composed.current.bind fun token => composed_word.bind fun name => ?_
  refine Composed.current.bind fun token => ?_
  split
  · exact Composed.advance.bind fun _ => composed_expression.bind fun value => .pure _
  · refine Composed.advance.bind fun _ => composed_expression.bind fun position => ?_
    refine (composed_symbol _).bind fun _ => (composed_symbol _).bind fun _ => ?_
    exact composed_expression.bind fun value => .pure _
  · refine Composed.advance.bind fun _ => composed_word.bind fun property => ?_
    exact (composed_symbol _).bind fun _ => composed_expression.bind fun value => .pure _
  · exact (composed_callOf composed_expression _ _).bind fun call => .pure _
  · exact .fail _

theorem composed_returning : Composed returning := by
  refine (composed_keyword _).bind fun token => Composed.current.bind fun next => ?_
  split
  · exact .pure _
  · exact composed_expression.bind fun value => .pure _

theorem composed_statementsUpTo {statement : Parser Stmt} (hstatement : Composed statement)
    (isEnd : TokenClass → Bool) (rounds : Nat) :
    Composed (statementsUpTo isEnd statement rounds) := by
  induction rounds with
  | zero => exact .fail _
  | succ rounds ih =>
      refine Composed.skipNewlines.bind fun _ => Composed.current.bind fun token => ?_
      split
      · exact .pure []
      · exact hstatement.bind fun first => ih.bind fun rest => .pure _

theorem composed_statements {statement : Parser Stmt} (hstatement : Composed statement)
    (isEnd : TokenClass → Bool) : Composed (statements isEnd statement) :=
  Composed.remaining.bind fun count => composed_statementsUpTo hstatement isEnd (count + 1)

section

variable {statement : Parser Stmt} (hstatement : Composed statement)

include hstatement

theorem composed_blockOf : Composed (blockOf statement) := by
  refine Composed.skipNewlines.bind fun _ => (composed_symbol _).bind fun _ => ?_
  refine (composed_statements hstatement endsBlock).bind fun body => ?_
  exact (composed_symbol _).bind fun _ => .pure body

theorem composed_branching : Composed (branching statement) := by
  have hotherwise : Composed (otherwise statement) := by
    refine (composed_isAt _).bind fun again => ?_
    split
    · exact hstatement.bind fun inner => .pure _
    · exact composed_blockOf hstatement
  refine (composed_keyword _).bind fun token => composed_parenthesized.bind fun condition => ?_
  refine (composed_blockOf hstatement).bind fun yes => Composed.skipNewlines.bind fun _ => ?_
  refine (composed_isAt _).bind fun found => ?_
  split
  · exact Composed.advance.bind fun _ => hotherwise.bind fun no => .pure _
  · exact .pure _

theorem composed_looping : Composed (looping statement) :=
  (composed_keyword _).bind fun _ => composed_parenthesized.bind fun _ =>
    (composed_blockOf hstatement).bind fun _ => .pure _

theorem composed_ranging : Composed (ranging statement) := by
  have hstep : Composed rangeStep := by
    refine (composed_isAt _).bind fun found => ?_
    split
    · exact Composed.advance.bind fun _ => composed_expression.bind fun step => .pure _
    · exact .pure _
  refine (composed_keyword _).bind fun token => (composed_symbol _).bind fun _ => ?_
  refine composed_word.bind fun counter => (composed_keyword _).bind fun _ => ?_
  refine composed_expression.bind fun first => (composed_keyword _).bind fun _ => ?_
  refine composed_expression.bind fun bound => hstep.bind fun step => ?_
  refine (composed_symbol _).bind fun _ => ?_
  exact (composed_blockOf hstatement).bind fun body => .pure _

theorem composed_definition : Composed (definition statement) := by
  refine (composed_keyword _).bind fun token => composed_word.bind fun name => ?_
  refine (composed_symbol _).bind fun _ => ?_
  refine (composed_commaList composed_word _).bind fun parameters => ?_
  exact (composed_blockOf hstatement).bind fun body => .pure _

theorem composed_attempting : Composed (attempting statement) := by
  refine (composed_keyword _).bind fun token => (composed_blockOf hstatement).bind fun body => ?_
  refine Composed.skipNewlines.bind fun _ => (composed_keyword _).bind fun _ => ?_
  refine (composed_symbol _).bind fun _ => composed_word.bind fun errorName => ?_
  refine (composed_symbol _).bind fun _ => ?_
  exact (composed_blockOf hstatement).bind fun handler => .pure _

theorem composed_unopened : Composed (unopened statement) := by
  refine Composed.current.bind fun token => ?_
  split
  · exact composed_branching hstatement
  · exact composed_looping hstatement
  · exact composed_ranging hstatement
  · exact composed_definition hstatement
  · exact composed_returning
  · exact Composed.advance.bind fun _ => .pure _
  · exact Composed.advance.bind fun _ => .pure _
  · exact composed_attempting hstatement
  · exact composed_naming
  · exact .fail _

theorem composed_opened (line : Nat) : Composed (opened statement line) := by
  refine Composed.current.bind fun token => ?_
  simp only
  split
  · refine (composed_keyword _).bind fun _ => ?_
    exact composed_parenthesized.bind fun value => .pure _
  split
  · refine (composed_keyword _).bind fun _ => (composed_keyword _).bind fun _ => ?_
    refine composed_word.bind fun name => (composed_symbol _).bind fun _ => ?_
    exact composed_expression.bind fun value => .pure _
  split
  · exact composed_unopened hstatement
  · exact .fail _

theorem composed_statementOf : Composed (statementOf statement) := by
  refine Composed.current.bind fun token => ?_
  split
  · exact Composed.advance.bind fun _ => composed_opened hstatement _
  · exact composed_unopened hstatement

end

theorem composed_statementWithin (depth : Nat) : Composed (statementWithin depth) := by
  induction depth with
  | zero => exact .fail _
  | succ depth ih => exact composed_statementOf ih

theorem composed_statement : Composed statement :=
  Composed.remaining.bind fun count => composed_statementWithin (count + 1)

theorem composed_program : Composed program :=
  composed_statements composed_statement endsProgram

end Parser

end Bhasha
