import Bhasha.Parser.Expression
import Bhasha.Proofs.Grammar.Expression

/-!
# The levels of the parser

The parser of each level, by the level of the grammar that it reads.
-/

namespace Bhasha

namespace Parser

open Grammar

/-- A joiner takes the tokens of a level, and builds the nodes of the level. -/
def JoinsLevel (joiner : Joiner) (level : Level) : Prop :=
  ∀ token, joiner token =
    (level.join? token.kind).map fun join left right => join left right token.line

theorem joinsLevel_orJoiner : JoinsLevel orJoiner .disjunction := by
  rintro ⟨kind, position⟩
  cases kind with
  | keyword reserved => cases reserved <;> rfl
  | symbol mark => cases mark <;> rfl
  | _ => rfl

theorem joinsLevel_andJoiner : JoinsLevel andJoiner .conjunction := by
  rintro ⟨kind, position⟩
  cases kind with
  | keyword reserved => cases reserved <;> rfl
  | symbol mark => cases mark <;> rfl
  | _ => rfl

theorem joinsLevel_comparison : JoinsLevel (binaryJoiner comparisonOp?) .comparison := by
  rintro ⟨kind, position⟩
  cases kind with
  | symbol mark => cases mark <;> rfl
  | _ => rfl

theorem joinsLevel_additive : JoinsLevel (binaryJoiner additiveOp?) .additive := by
  rintro ⟨kind, position⟩
  cases kind with
  | symbol mark => cases mark <;> rfl
  | _ => rfl

theorem joinsLevel_multiplicative :
    JoinsLevel (binaryJoiner multiplicativeOp?) .multiplicative := by
  rintro ⟨kind, position⟩
  cases kind with
  | symbol mark => cases mark <;> rfl
  | _ => rfl

theorem unaryOp?_eq (token : Token) : unaryOp? token = sign? token.kind := by
  obtain ⟨kind, position⟩ := token
  cases kind with
  | keyword reserved => cases reserved <;> rfl
  | symbol mark => cases mark <;> rfl
  | _ => rfl

/-- The parser of a level, in terms of the parser for a whole expression. -/
def ofLevel : Level → Parser Expr → Parser Expr
  | .disjunction => disjunction
  | .conjunction => conjunction
  | .comparison => comparison
  | .additive => additive
  | .multiplicative => multiplicative
  | .unary => unary
  | .suffixed => suffixed
  | .primary => primary

/-- The joiner of a level; the levels without binary operators join nothing. -/
def joinerOf : Level → Joiner
  | .disjunction => orJoiner
  | .conjunction => andJoiner
  | .comparison => binaryJoiner comparisonOp?
  | .additive => binaryJoiner additiveOp?
  | .multiplicative => binaryJoiner multiplicativeOp?
  | .unary | .suffixed | .primary => fun _ => none

end Parser

end Bhasha
