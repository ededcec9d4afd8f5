import Bhasha.Proofs.Parser.Lockstep

/-!
# Expressions in lockstep

Repetitions are bounded by the number of tokens left, and expressions inside others by the same
number.  Each round and each expression takes a token at least, so with these bounds nothing stops
too early, and two parsers with different bounds of this kind stay in lockstep.
-/

namespace Bhasha

namespace Parser

variable {α : Type} {here : TokenKind → Prop} {most most' : Nat}

theorem lockstep_expect {expected : TokenClass} (hexpected : expected ≠ .endOfInput) :
    Lockstep here most most' 1 (expect expected) (expect expected) := by
  apply lockstep_ifAt
  · apply lockstep_advance
    rintro kind hkind rfl
    exact hexpected hkind.symm
  · exact lockstep_fail _

theorem lockstep_symbol (expected : Symbol) :
    Lockstep here most most' 1 (symbol expected) (symbol expected) :=
  lockstep_expect (by simp)

theorem lockstep_keyword (expected : Keyword) :
    Lockstep here most most' 1 (keyword expected) (keyword expected) :=
  lockstep_expect (by simp)

theorem lockstep_take {kind : TokenKind} (hkind : kind ≠ .endOfInput) :
    Lockstep (· = kind) most most' 1 advance advance :=
  lockstep_advance fun _ hhere => hhere ▸ hkind

theorem lockstep_takeClass {expected : TokenClass} (hexpected : expected ≠ .endOfInput) :
    Lockstep (·.toClass = expected) most most' 1 advance advance := by
  apply lockstep_advance
  rintro kind hkind rfl
  exact hexpected hkind.symm

theorem lockstep_word : Lockstep here most most' 1 word word := by
  apply lockstep_current
  intro kind position position'
  cases kind with
  | word name => exact (lockstep_take (by simp)).after fun _ _ => lockstep_pure name name
  | _ => exact lockstep_fail _

theorem lockstep_itemsUpTo {item item' : Parser α} (closing : Symbol)
    (hitem : Lockstep Anywhere most most' 1 item item') {rounds rounds' : Nat}
    (hmost : most ≤ rounds) (hmost' : most' ≤ rounds') :
    Lockstep here most most' 1 (itemsUpTo closing item rounds) (itemsUpTo closing item' rounds') := by
  induction rounds generalizing here most most' rounds' with
  | zero => exact lockstep_of_no_input (composed_itemsUpTo hitem.composed closing 0) (by omega)
  | succ rounds ih =>
      cases rounds' with
      | zero =>
          exact lockstep_of_no_input (composed_itemsUpTo hitem.composed closing _) (by omega)
      | succ rounds' =>
          refine lockstep_skipNewlines.before fun _ _ => lockstep_ifAt ?_ ?_
          · exact (lockstep_takeClass (by simp)).after fun _ _ => lockstep_pure _ _
          · refine hitem.after fun first first' => lockstep_skipNewlines.before fun _ _ => ?_
            refine lockstep_ifAt ?_ ?_
            · refine ((lockstep_takeClass (by simp)).after fun _ _ => ?_).loose
              have hrest : Lockstep Anywhere (most - 1 - 1) (most' - 1 - 1) 1
                  (itemsUpTo closing item rounds) (itemsUpTo closing item' rounds') :=
                ih (hitem.fewer (by omega) (by omega)) (by omega) (by omega)
              exact (hrest.after fun _ _ => lockstep_pure _ _).loose
            · exact ((lockstep_symbol closing).after fun _ _ => lockstep_pure _ _).loose

theorem lockstep_commaList {item item' : Parser α} (closing : Symbol)
    (hitem : Lockstep Anywhere most most' 1 item item') :
    Lockstep here most most' 1 (commaList closing item) (commaList closing item') := by
  apply lockstep_remaining
  · exact fun count => composed_itemsUpTo hitem.composed closing (count + 1)
  · intro count count' hcount hcount'
    exact lockstep_itemsUpTo closing (hitem.fewer (by omega) (by omega)) (Nat.le_refl _)
      (Nat.le_refl _)

/-- Which operators there are depends on the kind of the token, and the end of the input is none. -/
structure Joiner.ByKind (joiner : Joiner) : Prop where
  same : ∀ kind position position',
    (joiner ⟨kind, position⟩).isSome = (joiner ⟨kind, position'⟩).isSome
  none : ∀ position, joiner ⟨.endOfInput, position⟩ = none

theorem current_at_end {input : Lexed} (hinput : input.tokens = []) :
    ∃ position, input.current = ⟨.endOfInput, position⟩ := by
  obtain ⟨tokens, ending⟩ := input
  subst hinput
  cases ending with
  | ok position => exact ⟨position, rfl⟩
  | error error => exact ⟨.start, rfl⟩

theorem current_bind_at_end {input : Lexed} (hinput : input.tokens = []) {next : Token → Parser α}
    {result : Except ParseError (α × Lexed)}
    (h : ∀ position, next ⟨.endOfInput, position⟩ input = result) :
    (current >>= next) input = result := by
  obtain ⟨position, hcurrent⟩ := current_at_end hinput
  rw [← h position, ← hcurrent]
  rfl

theorem joinFrom_at_end {joiner : Joiner} (hjoiner : joiner.ByKind) (operand : Parser Expr)
    (rounds : Nat) (left : Expr) {input : Lexed} (hinput : input.tokens = []) :
    joinFrom joiner operand rounds left input = (pure left : Parser Expr) input := by
  cases rounds with
  | zero => rfl
  | succ rounds =>
      apply current_bind_at_end hinput
      intro position
      rw [hjoiner.none position]

theorem lockstep_joinFrom_at_end {joiner : Joiner} (hjoiner : joiner.ByKind)
    {operand operand' : Parser Expr} (hoperand : Composed operand) (rounds rounds' : Nat)
    (left left' : Expr) (hmost : most ≤ 1 ∨ most' ≤ 1) :
    Lockstep here most most' 0 (joinFrom joiner operand rounds left)
      (joinFrom joiner operand' rounds' left') :=
  (lockstep_pure left left').at_end (composed_joinFrom hoperand joiner rounds left) hmost
    (fun _ => joinFrom_at_end hjoiner operand rounds left)
    (fun _ => joinFrom_at_end hjoiner operand' rounds' left')

theorem lockstep_joinFrom {joiner : Joiner} (hjoiner : joiner.ByKind)
    {operand operand' : Parser Expr} (hoperand : Lockstep Anywhere most most' 1 operand operand')
    {rounds rounds' : Nat} (hmost : most ≤ rounds + 1) (hmost' : most' ≤ rounds' + 1)
    (left left' : Expr) :
    Lockstep here most most' 0 (joinFrom joiner operand rounds left)
      (joinFrom joiner operand' rounds' left') := by
  induction rounds generalizing here most most' rounds' left left' with
  | zero => exact lockstep_joinFrom_at_end hjoiner hoperand.composed _ _ _ _ (by omega)
  | succ rounds ih =>
      cases rounds' with
      | zero => exact lockstep_joinFrom_at_end hjoiner hoperand.composed _ _ _ _ (by omega)
      | succ rounds' =>
          apply lockstep_current
          intro kind position position'
          have hsame := hjoiner.same kind position position'
          have hkind (hjoin : (joiner ⟨kind, position⟩).isSome) : kind ≠ .endOfInput := by
            rintro rfl
            rw [hjoiner.none] at hjoin
            cases hjoin
          cases hjoin : joiner ⟨kind, position⟩ with
          | none =>
              cases hjoin' : joiner ⟨kind, position'⟩ with
              | none => exact lockstep_pure _ _
              | some join => simp [hjoin, hjoin'] at hsame
          | some join =>
              cases hjoin' : joiner ⟨kind, position'⟩ with
              | none => simp [hjoin, hjoin'] at hsame
              | some join' =>
                  refine ((lockstep_take (hkind (by simp [hjoin]))).after fun _ _ => ?_).loose
                  have hright : Lockstep Anywhere (most - 1) (most' - 1) 1 operand operand' :=
                    hoperand.fewer (by omega) (by omega)
                  refine (hright.after fun right right' => ?_).loose
                  exact ih (hoperand.fewer (by omega) (by omega)) (by omega) (by omega) _ _

theorem lockstep_joined {joiner : Joiner} (hjoiner : joiner.ByKind)
    {operand operand' : Parser Expr} (hoperand : Lockstep Anywhere most most' 1 operand operand') :
    Lockstep here most most' 1 (joined joiner operand) (joined joiner operand') := by
  refine hoperand.of_anywhere.after fun first first' => ?_
  apply lockstep_remaining
  · exact fun count => composed_joinFrom hoperand.composed joiner count first
  · intro count count' hcount hcount'
    exact lockstep_joinFrom hjoiner (hoperand.fewer (by omega) (by omega)) (Nat.le_refl _)
      (Nat.le_refl _) first first'

section

variable {expression expression' : Parser Expr}
  (h : Lockstep Anywhere (most - 1) (most' - 1) 1 expression expression')

include h

theorem lockstep_callOf {name name' : String} {line line' : Nat} :
    Lockstep here most most' 1 (callOf expression name line) (callOf expression' name' line') := by
  refine (lockstep_symbol .leftParen).after fun _ _ => ?_
  exact ((lockstep_commaList .rightParen h).after fun _ _ => lockstep_pure _ _).loose

theorem lockstep_entry :
    Lockstep here most most' 1 (entry expression) (entry expression') := by
  have hkey : Lockstep here most most' 1 entryKey entryKey := by
    apply lockstep_current
    intro kind position position'
    cases kind with
    | text key => exact (lockstep_take (by simp)).after fun _ _ => lockstep_pure _ _
    | _ => exact lockstep_word
  refine hkey.after fun key key' => ((lockstep_symbol .colon).after fun _ _ => ?_).loose
  refine lockstep_skipNewlines.before fun _ _ => ?_
  exact ((h.fewer (by omega) (by omega)).after fun value value' => lockstep_pure _ _).loose

theorem lockstep_primary :
    Lockstep here most most' 1 (primary expression) (primary expression') := by
  have hconstant {kind : TokenKind} (hkind : kind ≠ .endOfInput) {value : Literal}
      {line line' : Nat} :
      Lockstep (· = kind) most most' 1 (constant value line) (constant value line') :=
    (lockstep_take hkind).after fun _ _ => lockstep_pure _ _
  apply lockstep_current
  intro kind position position'
  simp only
  split
  · exact hconstant (by simp)
  · exact hconstant (by simp)
  · exact hconstant (by simp)
  · exact hconstant (by simp)
  · exact hconstant (by simp)
  · refine (lockstep_take (by simp)).after fun _ _ => lockstep_ifAt ?_ ?_
    · exact (lockstep_callOf (h.fewer (by omega) (by omega))).loose
    · exact lockstep_pure _ _
  · refine (lockstep_take (by simp)).after fun _ _ => ?_
    exact ((lockstep_commaList _ h).after fun _ _ => lockstep_pure _ _).loose
  · refine (lockstep_take (by simp)).after fun _ _ => ?_
    have hentry : Lockstep Anywhere (most - 1) (most' - 1) 1 (entry expression)
        (entry expression') :=
      lockstep_entry (h.fewer (by omega) (by omega))
    exact ((lockstep_commaList _ hentry).after fun _ _ => lockstep_pure _ _).loose
  · refine (lockstep_take (by simp)).after fun _ _ => (h.after fun _ _ => ?_).loose
    exact ((lockstep_symbol _).after fun _ _ => lockstep_pure _ _).loose
  · exact lockstep_fail _

omit h in
theorem suffixes_at_end (rounds : Nat) (target : Expr) {input : Lexed}
    (hinput : input.tokens = []) :
    suffixes expression rounds target input = (pure target : Parser Expr) input := by
  cases rounds with
  | zero => rfl
  | succ rounds => exact current_bind_at_end hinput fun _ => rfl

theorem lockstep_suffixes_at_end (rounds rounds' : Nat) (target target' : Expr)
    (hmost : most ≤ 1 ∨ most' ≤ 1) :
    Lockstep here most most' 0 (suffixes expression rounds target)
      (suffixes expression' rounds' target') :=
  (lockstep_pure target target').at_end (composed_suffixes h.composed rounds target) hmost
    (fun _ => suffixes_at_end rounds target) (fun _ => suffixes_at_end rounds' target')

theorem lockstep_suffixes {rounds rounds' : Nat} (hmost : most ≤ rounds + 1)
    (hmost' : most' ≤ rounds' + 1) (target target' : Expr) :
    Lockstep here most most' 0 (suffixes expression rounds target)
      (suffixes expression' rounds' target') := by
  induction rounds generalizing here most most' rounds' target target' with
  | zero => exact lockstep_suffixes_at_end h _ _ _ _ (by omega)
  | succ rounds ih =>
      cases rounds' with
      | zero => exact lockstep_suffixes_at_end h _ _ _ _ (by omega)
      | succ rounds' =>
          apply lockstep_current
          intro kind position position'
          simp only
          split
          · refine ((lockstep_take (by simp)).after fun _ _ => (h.after fun _ _ => ?_).loose).loose
            refine ((lockstep_symbol _).after fun _ _ => ?_).loose
            exact ih (h.fewer (by omega) (by omega)) (by omega) (by omega) _ _
          · refine ((lockstep_take (by simp)).after fun _ _ => ?_).loose
            refine (lockstep_word.after fun _ _ => ?_).loose
            exact ih (h.fewer (by omega) (by omega)) (by omega) (by omega) _ _
          · exact lockstep_pure _ _

theorem lockstep_suffixed :
    Lockstep here most most' 1 (suffixed expression) (suffixed expression') := by
  refine (lockstep_primary h).after fun target target' => ?_
  apply lockstep_remaining
  · exact fun count => composed_suffixes h.composed count target
  · intro count count' hcount hcount'
    exact lockstep_suffixes (h.fewer (by omega) (by omega)) (Nat.le_refl _) (Nat.le_refl _) _ _

omit h in
theorem signed_at_end (rounds : Nat) {input : Lexed} (hinput : input.tokens = []) :
    signed expression rounds input = suffixed expression input := by
  cases rounds with
  | zero => rfl
  | succ rounds => exact current_bind_at_end hinput fun _ => rfl

theorem lockstep_signed_at_end (rounds rounds' : Nat) (hmost : most ≤ 1 ∨ most' ≤ 1) :
    Lockstep here most most' 1 (signed expression rounds) (signed expression' rounds') :=
  (lockstep_suffixed h).at_end (composed_signed h.composed rounds) hmost
    (fun _ => signed_at_end rounds) (fun _ => signed_at_end rounds')

theorem lockstep_signed {rounds rounds' : Nat} (hmost : most ≤ rounds + 1)
    (hmost' : most' ≤ rounds' + 1) :
    Lockstep here most most' 1 (signed expression rounds) (signed expression' rounds') := by
  induction rounds generalizing here most most' rounds' with
  | zero => exact lockstep_signed_at_end h _ _ (by omega)
  | succ rounds ih =>
      cases rounds' with
      | zero => exact lockstep_signed_at_end h _ _ (by omega)
      | succ rounds' =>
          apply lockstep_current
          intro kind position position'
          have hop : unaryOp? ⟨kind, position'⟩ = unaryOp? ⟨kind, position⟩ := rfl
          simp only [hop]
          cases hfound : unaryOp? ⟨kind, position⟩ with
          | none => exact lockstep_suffixed h
          | some op =>
              have hkind : kind ≠ .endOfInput := by
                rintro rfl
                cases hfound
              refine (lockstep_take hkind).after fun _ _ => ?_
              have hrest : Lockstep Anywhere (most - 1) (most' - 1) 1 (signed expression rounds)
                  (signed expression' rounds') :=
                ih (h.fewer (by omega) (by omega)) (by omega) (by omega)
              exact (hrest.after fun _ _ => lockstep_pure _ _).loose

theorem lockstep_unary : Lockstep here most most' 1 (unary expression) (unary expression') := by
  apply lockstep_remaining
  · exact composed_signed h.composed
  · intro count count' hcount hcount'
    exact lockstep_signed (h.fewer (by omega) (by omega)) (Nat.le_refl _) (Nat.le_refl _)

omit h in
theorem byKind_binaryJoiner (operator? : Symbol → Option BinaryOp) :
    (binaryJoiner operator?).ByKind where
  same kind _ _ := by
    cases kind <;> simp [binaryJoiner]
  none _ := rfl

omit h in
theorem byKind_andJoiner : andJoiner.ByKind where
  same kind _ _ := by
    unfold andJoiner
    simp only
    split <;> rfl
  none _ := rfl

omit h in
theorem byKind_orJoiner : orJoiner.ByKind where
  same kind _ _ := by
    unfold orJoiner
    simp only
    split <;> rfl
  none _ := rfl

theorem lockstep_disjunction :
    Lockstep here most most' 1 (disjunction expression) (disjunction expression') := by
  have hlevel {joiner : Joiner} (hjoiner : joiner.ByKind) {operand operand' : Parser Expr}
      (hoperand : Lockstep Anywhere most most' 1 operand operand') :
      Lockstep Anywhere most most' 1 (joined joiner operand) (joined joiner operand') :=
    lockstep_joined hjoiner hoperand
  have hmultiplicative := hlevel (byKind_binaryJoiner multiplicativeOp?) (lockstep_unary h)
  have hadditive := hlevel (byKind_binaryJoiner additiveOp?) hmultiplicative
  have hcomparison := hlevel (byKind_binaryJoiner comparisonOp?) hadditive
  have hconjunction := hlevel byKind_andJoiner hcomparison
  exact lockstep_joined byKind_orJoiner hconjunction

end

theorem lockstep_expressionWithin {depth depth' : Nat} (hmost : most ≤ depth)
    (hmost' : most' ≤ depth') :
    Lockstep here most most' 1 (expressionWithin depth) (expressionWithin depth') := by
  induction depth generalizing here most most' depth' with
  | zero => exact lockstep_of_no_input (composed_expressionWithin 0) (by omega)
  | succ depth ih =>
      cases depth' with
      | zero => exact lockstep_of_no_input (composed_expressionWithin _) (by omega)
      | succ depth' => exact lockstep_disjunction (ih (by omega) (by omega))

theorem lockstep_expression : Lockstep here most most' 1 expression expression := by
  apply lockstep_remaining
  · exact fun count => composed_disjunction (composed_expressionWithin count)
  · intro count count' _ _
    exact lockstep_disjunction (lockstep_expressionWithin (Nat.le_refl _) (Nat.le_refl _))

end Parser

end Bhasha
