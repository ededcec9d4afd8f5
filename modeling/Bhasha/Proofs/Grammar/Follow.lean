import Bhasha.Proofs.Grammar.Statement

/-!
# What may follow

Phrases are read as far as they go, so a phrase of the grammar is what is read only if the next
token does not carry it on.  A token carries on the phrases of its own level and of the looser
ones; no token that may start or end a statement, and none that ends an item of a list, carries
an expression on.
-/

namespace Bhasha

namespace Grammar

namespace Level

/-- The place of a level, counted from the loosest. -/
def rank : Level → Nat
  | disjunction => 0
  | conjunction => 1
  | comparison => 2
  | additive => 3
  | multiplicative => 4
  | unary => 5
  | suffixed => 6
  | primary => 7

theorem rank_of_tighter? {level next : Level} (h : level.tighter? = some next) :
    next.rank = level.rank + 1 := by
  cases level <;> cases h <;> rfl

theorem rank_lt_unary_of_join? {level : Level} {kind : TokenKind} {join : Expr → Expr → Nat → Expr}
    (h : level.join? kind = some join) : level.rank < unary.rank := by
  cases level with
  | unary => simp [join?] at h
  | suffixed => simp [join?] at h
  | primary => simp [join?] at h
  | _ => decide

end Level

/-- How tightly a token binds to an expression in front of it.  An opening parenthesis makes a
call of a name, which no looser phrase ends in. -/
def strength? : TokenKind → Option Nat
  | .keyword .wa | .symbol .orOr => some 0
  | .keyword .ra | .symbol .andAnd => some 1
  | .symbol .equalEqual | .symbol .notEqual | .symbol .less | .symbol .lessEqual
  | .symbol .greater | .symbol .greaterEqual => some 2
  | .symbol .plus | .symbol .minus => some 3
  | .symbol .star | .symbol .slash | .symbol .percent => some 4
  | .symbol .leftBracket | .symbol .dot => some 6
  | .symbol .leftParen => some 8
  | _ => none

/-- What follows carries on phrases of the level or of looser ones, but of no tighter one. -/
def CarriesOn (level : Level) (rest : List Token) : Prop :=
  ∀ strength, strength? (front rest) = some strength → strength ≤ level.rank

/-- What follows does not carry on a phrase of the level. -/
def Ends (level : Level) (rest : List Token) : Prop :=
  ∀ strength, strength? (front rest) = some strength → strength < level.rank

theorem strength?_of_join? {level : Level} {kind : TokenKind} {join : Expr → Expr → Nat → Expr}
    (h : level.join? kind = some join) : strength? kind = some level.rank := by
  unfold Level.join? at h
  split at h <;> first | rfl | cases h

theorem CarriesOn.ends_next {level next : Level} {rest : List Token} (h : CarriesOn level rest)
    (htighter : level.tighter? = some next) : Ends next rest := by
  intro strength hstrength
  have hle := h strength hstrength
  rw [Level.rank_of_tighter? htighter]
  omega

theorem Ends.carriesOn {level : Level} {rest : List Token} (h : Ends level rest) :
    CarriesOn level rest :=
  fun strength hstrength => Nat.le_of_lt (h strength hstrength)

theorem ends_of_strength? {rest : List Token} (h : strength? (front rest) = none) (level : Level) :
    Ends level rest := by
  intro strength hstrength
  rw [h] at hstrength
  cases hstrength

/-- An operator of the level does not carry its left operand on. -/
theorem carriesOn_of_join? {level : Level} {kind : TokenKind} {position : Position}
    {rest : List Token} {join : Expr → Expr → Nat → Expr} (h : level.join? kind = some join) :
    CarriesOn level (⟨kind, position⟩ :: rest) := by
  intro strength hstrength
  rw [front_cons, strength?_of_join? h] at hstrength
  cases hstrength
  exact Nat.le_refl _

theorem carriesOn_of_strength? {level : Level} {rest : List Token} {strength : Nat}
    (h : strength? (front rest) = some strength) (hle : strength ≤ level.rank) :
    CarriesOn level rest := by
  intro other hother
  rw [h] at hother
  cases hother
  exact hle

/-- No token is an operator of the level of prefix operators. -/
theorem CarriesOn.ends_unary {rest : List Token} (h : CarriesOn .unary rest) :
    Ends .unary rest := by
  intro strength hstrength
  have hle := h strength hstrength
  have hne : strength ≠ Level.unary.rank := by
    rintro rfl
    unfold strength? at hstrength
    split at hstrength <;> cases hstrength
  omega

theorem Ends.join?_eq_none {level : Level} {rest : List Token} (h : Ends level rest) :
    level.join? (front rest) = none := by
  cases hjoin : level.join? (front rest) with
  | none => rfl
  | some join => exact absurd (h _ (strength?_of_join? hjoin)) (Nat.lt_irrefl _)

/-- The tokens that an operand starts with. -/
def startsOperand : TokenKind → Bool
  | .number _ | .text _ | .word _ | .keyword .satya | .keyword .asatya | .keyword .khali
  | .symbol .leftParen | .symbol .leftBracket | .symbol .leftBrace => true
  | _ => false

theorem sign?_of_startsOperand {kind : TokenKind} (h : startsOperand kind = true) :
    sign? kind = none := by
  unfold startsOperand at h
  split at h <;> first | rfl | cases h

/-- An expression starts with an operand or, at the looser levels, with an operator in front of
one. -/
theorem Expression.starts {level : Level} {input rest : List Token} {tree : Expr}
    (h : Expression level input rest tree) :
    startsOperand (front input) = true ∨
      ((sign? (front input)).isSome = true ∧ level.rank ≤ Level.unary.rank) := by
  induction h with
  | tighter htighter _ ih =>
      rw [Level.rank_of_tighter? htighter] at ih
      exact ih.imp_right fun h => ⟨h.1, Nat.le_of_succ_le h.2⟩
  | joined _ _ _ _ ih _ => exact ih
  | sign hsign => exact .inr ⟨by simp [hsign], Nat.le_refl _⟩
  | index _ _ ih _ => exact ih
  | property _ ih => exact ih
  | constant hconstant =>
      refine .inl ?_
      unfold constant? at hconstant
      split at hconstant <;> first | rfl | cases hconstant
  | _ => exact .inl rfl

theorem Expression.front_ne {level : Level} {input rest : List Token} {tree : Expr}
    (h : Expression level input rest tree) {kind : TokenKind}
    (hoperand : startsOperand kind = false) (hsign : sign? kind = none) : front input ≠ kind := by
  rintro rfl
  rcases h.starts with hstarts | ⟨hstarts, -⟩
  · rw [hoperand] at hstarts
    cases hstarts
  · rw [hsign] at hstarts
    cases hstarts

theorem Expression.sign?_front {input rest : List Token} {tree : Expr}
    (h : Expression .suffixed input rest tree) : sign? (front input) = none := by
  rcases h.starts with hoperand | ⟨-, hrank⟩
  · exact sign?_of_startsOperand hoperand
  · exact absurd hrank (by decide)

theorem Expression.consumes {level : Level} {input rest : List Token} {tree : Expr}
    (h : Expression level input rest tree) : Consumes input rest := by
  induction h with
  | tighter _ _ ih => exact ih
  | joined _ _ _ _ ihleft ihright => exact ihright.of_suffix ihleft.of_cons.1
  | sign _ _ ih => exact consumes_cons ih.1
  | index _ _ ihtarget ihplace => exact ihplace.of_cons.of_suffix ihtarget.of_cons.1
  | property _ ih => exact ih.of_cons.of_cons
  | constant => exact consumes_cons (List.suffix_refl _)
  | var => exact consumes_cons (List.suffix_refl _)
  | call hseparated _ ih =>
      exact (consumes_cons (hseparated.consumes ih).1).of_suffix (List.suffix_cons _ _)
  | list hseparated _ ih => exact consumes_cons (hseparated.consumes ih).1
  | record hseparated hkeys _ ih =>
      refine consumes_cons (hseparated.consumes ?_).1
      intro piece hpiece
      obtain ⟨entry, hentry, rfl⟩ := List.mem_map.mp hpiece
      exact (ih entry hentry).of_suffix (hkeys entry hentry).suffix
  | parentheses _ ih => exact consumes_cons ih.of_cons.1

/-- The tokens that a statement of a form starts with. -/
def startsStatement : Form → TokenKind → Bool
  | .any, .keyword .sathi => true
  | _, .word _ | _, .keyword .yadi | _, .keyword .jaba | _, .keyword .prawahit
  | _, .keyword .kaam | _, .keyword .firta | _, .keyword .thodau | _, .keyword .jari
  | _, .keyword .pryas => true
  | _, _ => false

theorem startsStatement_any {form : Form} {kind : TokenKind} (h : startsStatement form kind = true) :
    startsStatement .any kind = true := by
  cases form with
  | any => exact h
  | unopened =>
      unfold startsStatement at h
      split at h <;> first | rfl | cases h

theorem Statement.starts {form : Form} {input rest : List Token} {tree : Stmt}
    (h : Statement form input rest tree) : startsStatement form (front input) = true := by
  induction h with
  | bare _ ih => exact startsStatement_any ih
  | _ => rfl

theorem Statement.front_ne {form : Form} {input rest : List Token} {tree : Stmt}
    (h : Statement form input rest tree) {kind : TokenKind}
    (hkind : startsStatement form kind = false) : front input ≠ kind := by
  intro hfront
  have hstarts := h.starts
  rw [hfront, hkind] at hstarts
  cases hstarts

theorem Parenthesized.consumes {input rest : List Token} {tree : Expr}
    (h : Parenthesized input rest tree) : Consumes input rest := by
  obtain ⟨opening, closing, inner, rfl, hinner⟩ := h
  exact consumes_cons hinner.consumes.of_cons.1

theorem RangeStep.suffix {input rest : List Token} {step : Option Expr}
    (h : RangeStep input rest step) : rest <:+ input := by
  cases h with
  | none => exact List.suffix_refl _
  | some hstep => exact hstep.consumes.1.trans (List.suffix_cons _ _)

theorem Word.consumes {input rest : List Token} {name : String} (h : Word input rest name) :
    Consumes input rest := by
  obtain ⟨position, rfl⟩ := h
  exact consumes_cons (List.suffix_refl _)

theorem CommaList.suffix {closing : Symbol} {input rest : List Token} {names : List String}
    (h : CommaList closing Word input rest names) : rest <:+ input := by
  obtain ⟨pieces, hseparated, hwords, -⟩ := h
  exact (hseparated.consumes fun piece hpiece => (hwords piece hpiece).consumes).1

theorem Statement.consumes {form : Form} {input rest : List Token} {tree : Stmt}
    (h : Statement form input rest tree) : Consumes input rest := by
  induction h with
  | bare _ ih => exact ih
  | opened _ ih => exact consumes_cons ih.1
  | print hvalue => exact consumes_append [_] hvalue.consumes.1
  | declare hvalue => exact consumes_append [_, _, _, _] hvalue.consumes.1
  | branch hcondition hyes _ ih =>
      exact consumes_cons ((hyes.consumes ih).1.trans hcondition.consumes.1)
  | branchElse hcondition hyes _ hnewlines hno _ ihyes ihno =>
      have hbehind := (hyes.consumes ihyes).1.trans hcondition.consumes.1
      have halternative := (List.suffix_cons _ _).trans (hnewlines.suffix.trans hbehind)
      exact consumes_cons ((hno.consumes ihno).1.trans halternative)
  | branchElseIf hcondition hyes _ hnewlines _ ihyes ihno =>
      have hbehind := (hyes.consumes ihyes).1.trans hcondition.consumes.1
      have halternative := (List.suffix_cons _ _).trans (hnewlines.suffix.trans hbehind)
      exact consumes_cons (ihno.1.trans halternative)
  | loop hcondition hbody _ ih =>
      exact consumes_cons ((hbody.consumes ih).1.trans hcondition.consumes.1)
  | range hfirst hbound hstep hbody _ ih =>
      have hsecond := hfirst.consumes.of_cons.1
      have hfourth := (List.suffix_cons _ _).trans (hstep.suffix.trans hbound.consumes.1)
      have hrest := ((hbody.consumes ih).1.trans hfourth).trans hsecond
      exact consumes_append [_, _, _] hrest
  | define hparameters hbody _ ih =>
      have hrest := (hbody.consumes ih).1.trans hparameters.suffix
      exact consumes_append [_, _] hrest
  | giveBack => exact consumes_cons (List.suffix_refl _)
  | giveBackValue hvalue => exact consumes_cons hvalue.consumes.1
  | leave => exact consumes_cons (List.suffix_refl _)
  | proceed => exact consumes_cons (List.suffix_refl _)
  | attempt hbody _ hnewlines hhandler _ ihbody ihhandler =>
      have hbehind := hnewlines.suffix.trans (hbody.consumes ihbody).1
      refine consumes_cons (List.IsSuffix.trans ?_ hbehind)
      exact (consumes_append [_, _, _] (hhandler.consumes ihhandler).1).1
  | assign hvalue => exact consumes_append [_] hvalue.consumes.1
  | assignIndex hplace hvalue =>
      have hmiddle := hplace.consumes.of_cons.of_cons.1
      exact consumes_append [_] (hvalue.consumes.1.trans hmiddle)
  | assignProperty hvalue => exact consumes_append [_, _, _] hvalue.consumes.1
  | call hcall => exact hcall.consumes

/-- What stands behind a statement: after newlines, the end of the block or of the input, or the
next statement. -/
def EndsStatement (rest : List Token) : Prop :=
  ∃ behind, Newlines rest behind ∧
    (front behind = .endOfInput ∨ front behind = .symbol .rightBrace ∨
      startsStatement .any (front behind) = true)

theorem EndsStatement.ends {rest : List Token} (h : EndsStatement rest) (level : Level) :
    Ends level rest := by
  apply ends_of_strength?
  obtain ⟨behind, hnewlines, hbehind⟩ := h
  rcases hnewlines.front_or with hfront | hfront
  · rw [hfront]
    rfl
  · rw [hfront]
    rcases hbehind with hend | hclosing | hstarts
    · rw [hend]
      rfl
    · rw [hclosing]
      rfl
    · unfold startsStatement at hstarts
      split at hstarts <;> simp_all [strength?]

end Grammar

end Bhasha
