import Bhasha.Proofs.Grammar.Follow
import Bhasha.Proofs.Parser.Descent
import Bhasha.Proofs.Parser.Level
import Bhasha.Proofs.Parser.LockstepExpression

/-!
# The recursions of the parser

Every repetition is a recursion whose layer is one round, in terms of the rounds that follow.  Every
nesting is one whose layer is the phrase outside, in terms of the phrases inside it.  Each layer
takes a token before it comes to a recursive call.
-/

namespace Bhasha

namespace Parser

open Grammar

variable {α : Type} {here : TokenKind → Prop} {most : Nat}

/-- A round of a list with commas, in terms of the rounds that follow. -/
def itemsRound (closing : Symbol) (item : Parser α) (rest : Unit → Parser (List α)) (_ : Unit) :
    Parser (List α) := do
  skipNewlines
  if ← isAt (.symbol closing) then
    let _ ← advance
    return []
  else
    let first ← item
    skipNewlines
    if ← isAt (.symbol .comma) then
      let _ ← advance
      let others ← rest ()
      return first :: others
    else
      let _ ← symbol closing
      return [first]

/-- A round of statements up to a token that ends them. -/
def statementsRound (isEnd : TokenClass → Bool) (statement : Parser Stmt)
    (rest : Unit → Parser (List Stmt)) (_ : Unit) : Parser (List Stmt) := do
  skipNewlines
  if isEnd (← current).toClass then return []
  else
    let first ← statement
    let others ← rest ()
    return first :: others

/-- A round of operators of one level, behind what has been joined so far. -/
def joinRound (joiner : Joiner) (operand : Parser Expr) (rest : Expr → Parser Expr)
    (left : Expr) : Parser Expr := do
  match joiner (← current) with
  | none => return left
  | some join =>
      let _ ← advance
      let right ← operand
      rest (join left right)

/-- A round of indexes and properties, behind what they belong to. -/
def suffixRound (expression : Parser Expr) (rest : Expr → Parser Expr) (target : Expr) :
    Parser Expr := do
  let token ← current
  match token.kind with
  | .symbol .leftBracket =>
      let _ ← advance
      let position ← expression
      let _ ← symbol .rightBracket
      rest (.index target position token.line)
  | .symbol .dot =>
      let _ ← advance
      let name ← word
      rest (.property target name token.line)
  | _ => return target

/-- An operator in front of an operand, or the operand. -/
def signRound (operand : Parser Expr) (rest : Unit → Parser Expr) (_ : Unit) : Parser Expr := do
  let token ← current
  match unaryOp? token with
  | none => operand
  | some op =>
      let _ ← advance
      let inner ← rest ()
      return .unary op inner token.line

/-- All rounds of operators of one level. -/
def joinLoop (joiner : Joiner) (operand : Parser Expr) (left : Expr) : Parser Expr := do
  joinFrom joiner operand (← remaining) left

/-- All rounds of indexes and properties. -/
def suffixLoop (expression : Parser Expr) (target : Expr) : Parser Expr := do
  suffixes expression (← remaining) target

/-- What a level of expressions does, in terms of what the levels do that it calls. -/
def levelRound (call : Level → Parser Expr) : Level → Parser Expr
  | .disjunction => call .conjunction >>= joinLoop orJoiner (call .conjunction)
  | .conjunction => call .comparison >>= joinLoop andJoiner (call .comparison)
  | .comparison => call .additive >>= joinLoop (binaryJoiner comparisonOp?) (call .additive)
  | .additive =>
      call .multiplicative >>= joinLoop (binaryJoiner additiveOp?) (call .multiplicative)
  | .multiplicative => call .unary >>= joinLoop (binaryJoiner multiplicativeOp?) (call .unary)
  | .unary => signRound (call .suffixed) (fun _ => call .unary) ()
  | .suffixed => call .primary >>= suffixLoop (call .disjunction)
  | .primary => primary (call .disjunction)

theorem takes_keyword (expected : Keyword) : Takes 1 (keyword expected) := by
  intro input output token h
  obtain ⟨position, rfl, rfl⟩ := keyword_eq_ok h
  exact ⟨rfl, [⟨.keyword expected, position⟩], rfl, Nat.le_refl _, by simp⟩

theorem takes_word : Takes 1 word := by
  intro input output name h
  obtain ⟨position, rfl⟩ := word_eq_ok h
  exact ⟨rfl, [⟨.word name, position⟩], rfl, Nat.le_refl _, by simp⟩

theorem composed_ofLevel {expression : Parser Expr} (h : Composed expression) (level : Level) :
    Composed (ofLevel level expression) := by
  have hunary := composed_unary h
  have hmultiplicative := composed_joined hunary (binaryJoiner multiplicativeOp?)
  have hadditive := composed_joined hmultiplicative (binaryJoiner additiveOp?)
  have hcomparison := composed_joined hadditive (binaryJoiner comparisonOp?)
  cases level with
  | disjunction => exact composed_disjunction h
  | conjunction => exact composed_joined hcomparison andJoiner
  | comparison => exact hcomparison
  | additive => exact hadditive
  | multiplicative => exact hmultiplicative
  | unary => exact hunary
  | suffixed => exact composed_suffixed h
  | primary => exact composed_primary h

section

variable {item item' : Parser α} (hitem : Same Anywhere most item item') (hcomposed : Composed item')

include hitem hcomposed

theorem same_itemsUpTo (closing : Symbol) (rounds : Nat) :
    Same here most (itemsUpTo closing item rounds) (itemsUpTo closing item' rounds) := by
  induction rounds generalizing here with
  | zero => exact .refl _
  | succ rounds ih =>
      refine Composed.skipNewlines.same fun _ => same_isAt (.refl _) ?_
      refine hitem.bind hcomposed.steady fun first => Composed.skipNewlines.same fun _ => ?_
      refine same_isAt (Composed.advance.same fun _ => ?_) (.refl _)
      exact ih.before _

theorem same_commaList (closing : Symbol) :
    Same here most (commaList closing item) (commaList closing item') :=
  same_remaining fun count => same_itemsUpTo hitem hcomposed closing (count + 1)

end

section

variable {operand operand' : Parser Expr} (hoperand : Same Anywhere most operand operand')
  (hcomposed : Composed operand')

include hoperand hcomposed

theorem same_joinLoop (joiner : Joiner) (left : Expr) :
    Same here most (joinLoop joiner operand left) (joinLoop joiner operand' left) := by
  have hrounds (rounds : Nat) (left : Expr) :
      Same Anywhere most (joinFrom joiner operand rounds left)
        (joinFrom joiner operand' rounds left) := by
    induction rounds generalizing left with
    | zero => exact .refl _
    | succ rounds ih =>
        refine Composed.current.same fun token => ?_
        cases joiner token with
        | none => exact .refl _
        | some join =>
            refine Composed.advance.same fun _ => hoperand.bind hcomposed.steady fun right => ?_
            exact ih _
  exact same_remaining fun count => (hrounds count left).fewer (Nat.le_refl _)

end

section

variable {expression expression' : Parser Expr}
  (hexpression : Same Anywhere most expression expression') (hcomposed : Composed expression')

include hexpression hcomposed

omit hcomposed in
theorem same_entry : Same here most (entry expression) (entry expression') := by
  refine Composed.same ?_ fun key => (composed_symbol _).same fun _ => ?_
  · refine Composed.current.bind fun token => ?_
    split
    · exact Composed.advance.bind fun _ => .pure _
    · exact composed_word
  · exact Composed.skipNewlines.same fun _ => hexpression.before _

/-- Every form of a primary expression takes a token before the expressions inside it. -/
theorem same_primary : Same here (most + 1) (primary expression) (primary expression') := by
  refine same_current fun token => ?_
  simp only
  split
  · exact .refl _
  · exact .refl _
  · exact .refl _
  · exact .refl _
  · exact .refl _
  next name hkind =>
    rw [hkind]
    refine same_advance (by simp) fun _ => same_isAt ?_ (.refl _)
    refine (composed_symbol _).same fun _ => ?_
    exact (same_commaList hexpression hcomposed _).before _
  next hkind =>
    rw [hkind]
    refine same_advance (by simp) fun _ => ?_
    exact (same_commaList hexpression hcomposed _).before _
  next hkind =>
    rw [hkind]
    refine same_advance (by simp) fun _ => ?_
    exact (same_commaList (same_entry hexpression) (composed_entry hcomposed) _).before _
  next hkind =>
    rw [hkind]
    refine same_advance (by simp) fun _ => ?_
    exact hexpression.before _
  · exact .refl _

theorem same_suffixLoop (target : Expr) :
    Same here (most + 1) (suffixLoop expression target) (suffixLoop expression' target) := by
  have hrounds (rounds : Nat) (target : Expr) :
      Same Anywhere (most + 1) (suffixes expression rounds target)
        (suffixes expression' rounds target) := by
    induction rounds generalizing target with
    | zero => exact .refl _
    | succ rounds ih =>
        refine same_current fun token => ?_
        split
        next hkind =>
          rw [hkind]
          refine same_advance (by simp) fun _ => ?_
          refine hexpression.bind hcomposed.steady fun place => (composed_symbol _).same fun _ => ?_
          exact (ih _).fewer (Nat.le_succ most)
        · exact Composed.advance.same fun _ => composed_word.same fun name => ih _
        · exact .refl _
  exact same_remaining fun count => (hrounds count target).fewer (Nat.le_refl _)

theorem same_suffixed : Same here (most + 1) (suffixed expression) (suffixed expression') :=
  (same_primary hexpression hcomposed).bind (composed_primary hcomposed).steady
    (same_suffixLoop hexpression hcomposed)

theorem same_unary : Same here (most + 1) (unary expression) (unary expression') := by
  have hrounds (rounds : Nat) :
      Same Anywhere (most + 1) (signed expression rounds) (signed expression' rounds) := by
    induction rounds with
    | zero => exact same_suffixed hexpression hcomposed
    | succ rounds ih =>
        refine Composed.current.same fun token => ?_
        cases unaryOp? token with
        | none => exact same_suffixed hexpression hcomposed
        | some op => exact Composed.advance.same fun _ => ih.before _
  exact same_remaining fun count => (hrounds count).fewer (Nat.le_refl _)

theorem same_disjunction :
    Same here (most + 1) (disjunction expression) (disjunction expression') := by
  have hlevel {operand operand' : Parser Expr} (hoperand : Same Anywhere (most + 1) operand operand')
      (hcomposed : Composed operand') (joiner : Joiner) :
      Same Anywhere (most + 1) (joined joiner operand) (joined joiner operand') :=
    hoperand.bind hcomposed.steady (same_joinLoop hoperand hcomposed joiner)
  have hinside := composed_ofLevel hcomposed
  have hunary : Same Anywhere (most + 1) (unary expression) (unary expression') :=
    same_unary hexpression hcomposed
  have hmultiplicative := hlevel hunary (hinside .unary) (binaryJoiner multiplicativeOp?)
  have hadditive := hlevel hmultiplicative (hinside .multiplicative) (binaryJoiner additiveOp?)
  have hcomparison := hlevel hadditive (hinside .additive) (binaryJoiner comparisonOp?)
  have hconjunction := hlevel hcomparison (hinside .comparison) andJoiner
  exact (hlevel hconjunction (hinside .conjunction) orJoiner).fewer (Nat.le_refl _)

end

section

variable {statement statement' : Parser Stmt}
  (hstatement : Same Anywhere most statement statement') (hcomposed : Composed statement')

include hstatement hcomposed

theorem same_statementsUpTo (isEnd : TokenClass → Bool) (rounds : Nat) :
    Same here most (statementsUpTo isEnd statement rounds)
      (statementsUpTo isEnd statement' rounds) := by
  induction rounds generalizing here with
  | zero => exact .refl _
  | succ rounds ih =>
      refine Composed.skipNewlines.same fun _ => Composed.current.same fun token => ?_
      split
      · exact .refl _
      · exact hstatement.bind hcomposed.steady fun first => ih.before _

theorem same_blockOf : Same here most (blockOf statement) (blockOf statement') := by
  refine Composed.skipNewlines.same fun _ => (composed_symbol _).same fun _ => ?_
  refine Same.before ?_ _
  exact same_remaining fun count => same_statementsUpTo hstatement hcomposed endsBlock (count + 1)

theorem same_branching : Same here (most + 1) (branching statement) (branching statement') := by
  have hotherwise : Same Anywhere most (otherwise statement) (otherwise statement') :=
    same_isAt ((hstatement.fewer (Nat.le_refl _)).before _) (same_blockOf hstatement hcomposed)
  refine (takes_keyword _).same fun _ => composed_parenthesized.same fun condition => ?_
  refine (same_blockOf hstatement hcomposed).bind (composed_blockOf hcomposed).steady fun yes => ?_
  refine Composed.skipNewlines.same fun _ => same_isAt ?_ (.refl _)
  exact Composed.advance.same fun _ => hotherwise.before _

theorem same_looping : Same here (most + 1) (looping statement) (looping statement') := by
  refine (takes_keyword _).same fun _ => composed_parenthesized.same fun condition => ?_
  exact (same_blockOf hstatement hcomposed).before _

theorem same_ranging : Same here (most + 1) (ranging statement) (ranging statement') := by
  have hstep : Composed rangeStep := by
    refine (composed_isAt _).bind fun found => ?_
    split
    · exact Composed.advance.bind fun _ => composed_expression.bind fun step => .pure _
    · exact .pure _
  refine (takes_keyword _).same fun _ => (composed_symbol _).same fun _ => ?_
  refine composed_word.same fun counter => (composed_keyword _).same fun _ => ?_
  refine composed_expression.same fun first => (composed_keyword _).same fun _ => ?_
  refine composed_expression.same fun bound => hstep.same fun step => ?_
  exact (composed_symbol _).same fun _ => (same_blockOf hstatement hcomposed).before _

theorem same_definition : Same here (most + 1) (definition statement) (definition statement') := by
  refine (takes_keyword _).same fun _ => composed_word.same fun name => ?_
  refine (composed_symbol _).same fun _ => (composed_commaList composed_word _).same fun names => ?_
  exact (same_blockOf hstatement hcomposed).before _

theorem same_attempting : Same here (most + 1) (attempting statement) (attempting statement') := by
  refine (takes_keyword _).same fun _ => ?_
  refine (same_blockOf hstatement hcomposed).bind (composed_blockOf hcomposed).steady fun body => ?_
  refine Composed.skipNewlines.same fun _ => (composed_keyword _).same fun _ => ?_
  refine (composed_symbol _).same fun _ => composed_word.same fun errorName => ?_
  exact (composed_symbol _).same fun _ => (same_blockOf hstatement hcomposed).before _

theorem same_unopened : Same here (most + 1) (unopened statement) (unopened statement') := by
  refine same_current fun token => ?_
  split
  · exact same_branching hstatement hcomposed
  · exact same_looping hstatement hcomposed
  · exact same_ranging hstatement hcomposed
  · exact same_definition hstatement hcomposed
  · exact .refl _
  · exact .refl _
  · exact .refl _
  · exact same_attempting hstatement hcomposed
  · exact .refl _
  · exact .refl _

theorem same_statementOf :
    Same here (most + 1) (statementOf statement) (statementOf statement') := by
  have hopened (line : Nat) :
      Same Anywhere (most + 1) (opened statement line) (opened statement' line) := by
    refine Composed.current.same fun token => ?_
    simp only
    split
    · exact .refl _
    split
    · exact .refl _
    split
    · exact same_unopened hstatement hcomposed
    · exact .refl _
  refine Composed.current.same fun token => ?_
  split
  · exact Composed.advance.same fun _ => hopened _
  · exact same_unopened hstatement hcomposed

end

end Parser

end Bhasha
