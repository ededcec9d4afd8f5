import Bhasha.Proofs.Parser.LockstepExpression

/-!
# Statements in lockstep

Every statement takes a token at least, and so does what stands in front of a statement inside it.
So the bounds on the number of statements and on their nesting are never reached, as with
expressions.
-/

namespace Bhasha

namespace Parser

variable {here : TokenKind → Prop} {most most' : Nat}

theorem lockstep_parenthesized : Lockstep here most most' 1 parenthesized parenthesized := by
  refine (lockstep_symbol _).after fun _ _ => (lockstep_expression.after fun _ _ => ?_).loose
  exact ((lockstep_symbol _).after fun _ _ => lockstep_pure _ _).loose

theorem lockstep_printing (line line' : Nat) :
    Lockstep here most most' 1 (printing line) (printing line') := by
  refine (lockstep_keyword _).after fun _ _ => ?_
  exact (lockstep_parenthesized.after fun _ _ => lockstep_pure _ _).loose

theorem lockstep_declaration (line line' : Nat) :
    Lockstep here most most' 1 (declaration line) (declaration line') := by
  refine (lockstep_keyword _).after fun _ _ => ((lockstep_keyword _).after fun _ _ => ?_).loose
  refine (lockstep_word.after fun _ _ => ((lockstep_symbol _).after fun _ _ => ?_).loose).loose
  exact (lockstep_expression.after fun _ _ => lockstep_pure _ _).loose

theorem lockstep_rangeStep : Lockstep here most most' 0 rangeStep rangeStep := by
  apply lockstep_ifAt
  · refine ((lockstep_takeClass (by simp)).after fun _ _ => ?_).loose
    exact (lockstep_expression.after fun _ _ => lockstep_pure _ _).loose
  · exact lockstep_pure _ _

theorem lockstep_returning : Lockstep here most most' 1 returning returning := by
  refine (lockstep_keyword _).after fun _ _ => lockstep_current ?_
  intro kind position position'
  have hvalue : Lockstep (· = kind) (most - 1) (most' - 1) 1 expression expression :=
    lockstep_expression
  apply lockstep_ite
  · exact fun _ => lockstep_pure _ _
  · exact fun _ => (hvalue.after fun _ _ => lockstep_pure _ _).loose

theorem lockstep_naming : Lockstep here most most' 1 naming naming := by
  refine lockstep_current fun _ position position' => lockstep_word.after fun name name' => ?_
  refine lockstep_current fun kind _ _ => ?_
  simp only
  split
  · refine ((lockstep_take (by simp)).after fun _ _ => ?_).loose
    exact (lockstep_expression.after fun _ _ => lockstep_pure _ _).loose
  · refine ((lockstep_take (by simp)).after fun _ _ => ?_).loose
    refine (lockstep_expression.after fun _ _ => ((lockstep_symbol _).after fun _ _ => ?_).loose).loose
    refine ((lockstep_symbol _).after fun _ _ => ?_).loose
    exact (lockstep_expression.after fun _ _ => lockstep_pure _ _).loose
  · refine ((lockstep_take (by simp)).after fun _ _ => (lockstep_word.after fun _ _ => ?_).loose).loose
    refine ((lockstep_symbol _).after fun _ _ => ?_).loose
    exact (lockstep_expression.after fun _ _ => lockstep_pure _ _).loose
  · exact ((lockstep_callOf lockstep_expression).after fun _ _ => lockstep_pure _ _).loose
  · exact lockstep_fail _

section

variable {statement statement' : Parser Stmt}

theorem lockstep_statementsUpTo {isEnd : TokenClass → Bool}
    (h : Lockstep Anywhere most most' 1 statement statement') {rounds rounds' : Nat}
    (hmost : most ≤ rounds) (hmost' : most' ≤ rounds') :
    Lockstep here most most' 0 (statementsUpTo isEnd statement rounds)
      (statementsUpTo isEnd statement' rounds') := by
  induction rounds generalizing here most most' rounds' with
  | zero => exact lockstep_of_no_input (composed_statementsUpTo h.composed isEnd 0) (by omega)
  | succ rounds ih =>
      cases rounds' with
      | zero => exact lockstep_of_no_input (composed_statementsUpTo h.composed isEnd _) (by omega)
      | succ rounds' =>
          refine lockstep_skipNewlines.before fun _ _ => lockstep_current ?_
          intro kind position position'
          apply lockstep_ite
          · exact fun _ => lockstep_pure _ _
          · refine fun _ => (h.of_anywhere.after fun _ _ => ?_).loose
            have hrest : Lockstep Anywhere (most - 1) (most' - 1) 0
                (statementsUpTo isEnd statement rounds)
                (statementsUpTo isEnd statement' rounds') :=
              ih (h.fewer (by omega) (by omega)) (by omega) (by omega)
            exact hrest.before fun _ _ => lockstep_pure _ _

theorem lockstep_statements {isEnd : TokenClass → Bool}
    (h : Lockstep Anywhere most most' 1 statement statement') :
    Lockstep here most most' 0 (statements isEnd statement) (statements isEnd statement') := by
  apply lockstep_remaining
  · exact fun count => composed_statementsUpTo h.composed isEnd (count + 1)
  · intro count count' hcount hcount'
    exact lockstep_statementsUpTo (h.fewer (by omega) (by omega)) (Nat.le_refl _) (Nat.le_refl _)

variable (h : Lockstep Anywhere (most - 1) (most' - 1) 1 statement statement')

include h

theorem lockstep_blockOf :
    Lockstep here most most' 1 (blockOf statement) (blockOf statement') := by
  refine lockstep_skipNewlines.before fun _ _ => (lockstep_symbol _).after fun _ _ => ?_
  refine (lockstep_statements h).before fun _ _ => ?_
  exact ((lockstep_symbol _).after fun _ _ => lockstep_pure _ _).loose

theorem lockstep_otherwise :
    Lockstep here (most - 1) (most' - 1) 1 (otherwise statement) (otherwise statement') := by
  apply lockstep_ifAt
  · exact h.of_anywhere.after fun _ _ => lockstep_pure _ _
  · exact lockstep_blockOf (h.fewer (by omega) (by omega))

theorem lockstep_branching :
    Lockstep here most most' 1 (branching statement) (branching statement') := by
  refine (lockstep_keyword _).after fun _ _ => (lockstep_parenthesized.after fun _ _ => ?_).loose
  refine ((lockstep_blockOf (h.fewer (by omega) (by omega))).after fun _ _ => ?_).loose
  refine lockstep_skipNewlines.before fun _ _ => lockstep_ifAt ?_ (lockstep_pure _ _)
  refine ((lockstep_takeClass (by simp)).after fun _ _ => ?_).loose
  have hotherwise : Lockstep Anywhere (most - 1) (most' - 1) 1 (otherwise statement)
      (otherwise statement') :=
    lockstep_otherwise h
  exact ((hotherwise.fewer (by omega) (by omega)).after fun _ _ => lockstep_pure _ _).loose

theorem lockstep_looping :
    Lockstep here most most' 1 (looping statement) (looping statement') := by
  refine (lockstep_keyword _).after fun _ _ => (lockstep_parenthesized.after fun _ _ => ?_).loose
  refine Lockstep.loose (Lockstep.after ?_ fun _ _ => lockstep_pure _ _)
  exact lockstep_blockOf (h.fewer (by omega) (by omega))

theorem lockstep_ranging :
    Lockstep here most most' 1 (ranging statement) (ranging statement') := by
  refine (lockstep_keyword _).after fun _ _ => ((lockstep_symbol _).after fun _ _ => ?_).loose
  refine (lockstep_word.after fun _ _ => ((lockstep_keyword _).after fun _ _ => ?_).loose).loose
  refine (lockstep_expression.after fun _ _ => ((lockstep_keyword _).after fun _ _ => ?_).loose).loose
  refine (lockstep_expression.after fun _ _ => lockstep_rangeStep.before fun _ _ => ?_).loose
  refine ((lockstep_symbol _).after fun _ _ => ?_).loose
  refine Lockstep.loose (Lockstep.after ?_ fun _ _ => lockstep_pure _ _)
  exact lockstep_blockOf (h.fewer (by omega) (by omega))

theorem lockstep_definition :
    Lockstep here most most' 1 (definition statement) (definition statement') := by
  refine (lockstep_keyword _).after fun _ _ => (lockstep_word.after fun _ _ => ?_).loose
  refine ((lockstep_symbol _).after fun _ _ => ?_).loose
  refine ((lockstep_commaList _ lockstep_word).after fun _ _ => ?_).loose
  refine Lockstep.loose (Lockstep.after ?_ fun _ _ => lockstep_pure _ _)
  exact lockstep_blockOf (h.fewer (by omega) (by omega))

theorem lockstep_attempting :
    Lockstep here most most' 1 (attempting statement) (attempting statement') := by
  refine (lockstep_keyword _).after fun _ _ => ?_
  refine ((lockstep_blockOf (h.fewer (by omega) (by omega))).after fun _ _ => ?_).loose
  refine lockstep_skipNewlines.before fun _ _ => ((lockstep_keyword _).after fun _ _ => ?_).loose
  refine ((lockstep_symbol _).after fun _ _ => (lockstep_word.after fun _ _ => ?_).loose).loose
  refine ((lockstep_symbol _).after fun _ _ => ?_).loose
  refine Lockstep.loose (Lockstep.after ?_ fun _ _ => lockstep_pure _ _)
  exact lockstep_blockOf (h.fewer (by omega) (by omega))

theorem lockstep_unopened :
    Lockstep here most most' 1 (unopened statement) (unopened statement') := by
  apply lockstep_current
  intro kind position position'
  simp only
  split
  · exact lockstep_branching h
  · exact lockstep_looping h
  · exact lockstep_ranging h
  · exact lockstep_definition h
  · exact lockstep_returning
  · exact (lockstep_take (by simp)).after fun _ _ => lockstep_pure _ _
  · exact (lockstep_take (by simp)).after fun _ _ => lockstep_pure _ _
  · exact lockstep_attempting h
  · exact lockstep_naming
  · exact lockstep_fail _

theorem lockstep_opened (line line' : Nat) :
    Lockstep here most most' 1 (opened statement line) (opened statement' line') := by
  apply lockstep_current
  intro kind position position'
  refine lockstep_ite (fun _ => lockstep_printing _ _) fun _ => ?_
  refine lockstep_ite (fun _ => lockstep_declaration _ _) fun _ => ?_
  exact lockstep_ite (fun _ => lockstep_unopened h) fun _ => lockstep_fail _

theorem lockstep_statementOf :
    Lockstep here most most' 1 (statementOf statement) (statementOf statement') := by
  apply lockstep_current
  intro kind position position'
  refine lockstep_ite (fun hclass => ?_) fun _ => lockstep_unopened h
  have hkind : kind ≠ .endOfInput := by
    rintro rfl
    cases hclass
  refine (lockstep_take hkind).after fun _ _ => ?_
  exact (lockstep_opened (h.fewer (by omega) (by omega)) _ _).loose

end

theorem lockstep_statementWithin {depth depth' : Nat} (hmost : most ≤ depth)
    (hmost' : most' ≤ depth') :
    Lockstep here most most' 1 (statementWithin depth) (statementWithin depth') := by
  induction depth generalizing here most most' depth' with
  | zero => exact lockstep_of_no_input (composed_statementWithin 0) (by omega)
  | succ depth ih =>
      cases depth' with
      | zero => exact lockstep_of_no_input (composed_statementWithin _) (by omega)
      | succ depth' => exact lockstep_statementOf (ih (by omega) (by omega))

theorem lockstep_statement : Lockstep here most most' 1 statement statement := by
  apply lockstep_remaining
  · exact fun count => composed_statementWithin (count + 1)
  · intro count count' _ _
    exact lockstep_statementWithin (Nat.le_refl _) (Nat.le_refl _)

theorem lockstep_program : Lockstep here most most' 0 program program :=
  lockstep_statements lockstep_statement

end Parser

end Bhasha
