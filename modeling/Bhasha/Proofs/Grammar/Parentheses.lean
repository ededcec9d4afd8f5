import Bhasha.Proofs.Parser.StatementSoundness
import Bhasha.Proofs.Program.Printer

/-!
# The fewest parentheses

However a program is spelled, its source text has at least as many parentheses as the printed one.
A phrase that is too loose for its place can stand there in parentheses only, so those that are
printed around operands are needed, and all others belong to calls and to statements.
-/

namespace Bhasha

namespace Grammar

open Printer

/-- The number of opening parentheses. -/
def parentheses (kinds : List TokenKind) : Nat :=
  kinds.count (.symbol .leftParen)

@[simp] theorem parentheses_nil : parentheses [] = 0 :=
  rfl

@[simp] theorem parentheses_cons (kind : TokenKind) (kinds : List TokenKind) :
    parentheses (kind :: kinds) =
      parentheses kinds + if kind = .symbol .leftParen then 1 else 0 := by
  simp [parentheses, List.count_cons]

@[simp] theorem parentheses_append (first second : List TokenKind) :
    parentheses (first ++ second) = parentheses first + parentheses second :=
  List.count_append

@[simp] theorem parentheses_inParentheses (kinds : List TokenKind) :
    parentheses (inParentheses kinds) = parentheses kinds + 1 := by
  simp [inParentheses]

@[simp] theorem parentheses_inBraces (lines : List TokenKind) :
    parentheses (inBraces lines) = parentheses lines := by
  simp [inBraces]

/-- A place that requires a tighter level is no cheaper. -/
theorem parentheses_operand_mono {rank other : Nat} (h : rank ≤ other) (level : Level)
    (kinds : List TokenKind) :
    parentheses (operand rank level kinds) ≤ parentheses (operand other level kinds) := by
  unfold operand
  by_cases hlooser : level.rank < rank
  · simp [hlooser, Nat.lt_of_lt_of_le hlooser h]
  · rw [if_neg hlooser]
    split <;> simp

/-- No place costs more than one pair. -/
theorem parentheses_operand_le (rank : Nat) (level : Level) (kinds : List TokenKind) :
    parentheses (operand rank level kinds) ≤ parentheses kinds + 1 := by
  unfold operand
  split <;> simp

theorem operand_of_le {rank : Nat} {level : Level} (h : rank ≤ level.rank)
    (kinds : List TokenKind) : operand rank level kinds = kinds :=
  if_neg (Nat.not_lt.mpr h)

@[simp] theorem parentheses_commaList {closing : Symbol} (hclosing : closing ≠ .leftParen)
    (items : List (List TokenKind)) :
    parentheses (commaList closing items) = parentheses items.flatten := by
  induction items with
  | nil => simp [commaList, hclosing]
  | cons item rest ih =>
      cases rest with
      | nil => simp [commaList, hclosing]
      | cons next others =>
          rw [commaList_cons_cons, List.flatten_cons, parentheses_append, parentheses_append,
            parentheses_cons, ih]
          simp

/-- The number of opening parentheses among some tokens. -/
def parenthesesIn (tokens : List Token) : Nat :=
  parentheses (tokens.map Token.kind)

@[simp] theorem parenthesesIn_cons (kind : TokenKind) (position : Position) (rest : List Token) :
    parenthesesIn (⟨kind, position⟩ :: rest) =
      parenthesesIn rest + if kind = .symbol .leftParen then 1 else 0 :=
  parentheses_cons kind (rest.map Token.kind)

theorem Newlines.parenthesesIn_eq {input rest : List Token} (h : Newlines input rest) :
    parenthesesIn input = parenthesesIn rest := by
  induction h with
  | none => rfl
  | more _ ih => simpa using ih

theorem Key.parenthesesIn_eq {input rest : List Token} {key : String} (h : Key input key rest) :
    parenthesesIn input = parenthesesIn rest := by
  cases h with
  | word hnewlines => simpa using hnewlines.parenthesesIn_eq
  | text hnewlines => simpa using hnewlines.parenthesesIn_eq

/-- Between the two places stand no fewer parentheses than the tokens of the kinds have. -/
def Suffices (kinds : List TokenKind) (input rest : List Token) : Prop :=
  parentheses kinds + parenthesesIn rest ≤ parenthesesIn input

theorem Separated.suffices {α : Type} {closing : Symbol} {input rest : List Token}
    {pieces : List (Piece α)} {kinds : α → List TokenKind} (hclosing : closing ≠ .leftParen)
    (h : Separated closing input pieces rest)
    (hpieces : ∀ piece ∈ pieces, Suffices (kinds piece.tree) piece.start piece.stop) :
    Suffices (commaList closing ((pieces.map Piece.tree).map kinds)) input rest := by
  unfold Suffices
  rw [parentheses_commaList hclosing]
  induction h with
  | close hnewlines =>
      have hcount := hnewlines.parenthesesIn_eq
      simp [hclosing] at hcount
      simp [hcount]
  | @last _ _ _ piece hstart hstop =>
      have hpiece := hpieces piece (by simp)
      have hfront := hstart.parenthesesIn_eq
      have hback := hstop.parenthesesIn_eq
      simp [hclosing] at hback
      simp only [Suffices, List.map_cons, List.map_nil, List.flatten_cons, List.flatten_nil,
        List.append_nil] at hpiece ⊢
      omega
  | @more _ _ _ _ piece pieces hstart hstop _ ih =>
      have hpiece := hpieces piece (by simp)
      have hothers := ih fun other hother => hpieces other (by simp [hother])
      have hfront := hstart.parenthesesIn_eq
      have hback := hstop.parenthesesIn_eq
      simp at hback
      simp only [Suffices, List.map_cons, List.flatten_cons, parentheses_append] at hpiece hothers ⊢
      omega

theorem join?_eq {level : Level} {kind : TokenKind} {join : Expr → Expr → Nat → Expr}
    (h : level.join? kind = some join) (left right : Expr) (line : Nat) :
    (join left right line).level = level ∧ kind ≠ .symbol .leftParen ∧
      parentheses (join left right line).kinds =
        parentheses (operand level.rank left.level left.kinds) +
          parentheses (operand (level.rank + 1) right.level right.kinds) := by
  unfold Level.join? at h
  split at h <;> cases h <;> exact ⟨rfl, by simp, by simp [Expr.kinds, BinaryOp.kind,
    LogicalOp.kind, BinaryOp.level, LogicalOp.level]⟩

theorem sign?_ne {kind : TokenKind} {op : UnaryOp} (h : sign? kind = some op) :
    kind ≠ .symbol .leftParen := by
  rintro rfl
  cases h

theorem unary_kind_ne (op : UnaryOp) : op.kind ≠ .symbol .leftParen := by
  cases op <;> simp [UnaryOp.kind]

theorem literal_kind_ne (value : Literal) : value.kind ≠ .symbol .leftParen := by
  cases value with
  | boolean value => cases value <;> simp [Literal.kind]
  | _ => simp [Literal.kind]

/-- At a place for its own level a tree is printed without parentheses. -/
theorem Suffices.operand {level : Level} {expr : Expr} {input rest : List Token}
    (h : Suffices expr.kinds input rest) (hlevel : expr.level = level) :
    Suffices (operand level.rank expr.level expr.kinds) input rest := by
  rw [operand_of_le (Nat.le_of_eq (congrArg Level.rank hlevel.symm))]
  exact h

theorem Suffices.of_disjunction {expr : Expr} {input rest : List Token}
    (h : Suffices (Printer.operand Level.disjunction.rank expr.level expr.kinds) input rest) :
    Suffices expr.kinds input rest := by
  have hloosest : Level.disjunction.rank ≤ expr.level.rank := Nat.zero_le _
  rwa [operand_of_le hloosest] at h

/-- A phrase has no fewer parentheses than its tree, printed at a place for its level. -/
theorem Expression.suffices {level : Level} {input rest : List Token} {tree : Expr}
    (h : Expression level input rest tree) :
    Suffices (operand level.rank tree.level tree.kinds) input rest := by
  induction h with
  | @tighter level next input rest tree htighter _ ih =>
      have hrank : level.rank ≤ next.rank := by
        rw [Level.rank_of_tighter? htighter]
        exact Nat.le_succ _
      have hmono := parentheses_operand_mono hrank tree.level tree.kinds
      exact Nat.le_trans (Nat.add_le_add_right hmono _) ih
  | @joined level next kind position input middle rest join left right hjoin htighter _ _ ihleft
      ihright =>
      obtain ⟨hlevel, hkind, hcount⟩ := join?_eq hjoin left right position.line
      rw [Level.rank_of_tighter? htighter] at ihright
      rw [hlevel, operand_of_le (Nat.le_refl _)]
      simp only [Suffices, parenthesesIn_cons, hkind, if_false] at ihleft ihright ⊢
      omega
  | sign hsign _ ih =>
      refine Suffices.operand ?_ rfl
      simpa [Suffices, Expr.kinds, sign?_ne hsign, unary_kind_ne] using ih
  | index _ _ ihtarget ihplace =>
      refine Suffices.operand ?_ rfl
      have hplace := ihplace.of_disjunction
      simp [Suffices, Expr.kinds] at ihtarget hplace ⊢
      omega
  | property _ ih =>
      refine Suffices.operand ?_ rfl
      simp [Suffices, Expr.kinds] at ih ⊢
      omega
  | constant hconstant =>
      refine Suffices.operand ?_ rfl
      simp [Suffices, Expr.kinds, literal_kind_ne]
  | var =>
      refine Suffices.operand ?_ rfl
      simp [Suffices, Expr.kinds]
  | call hseparated _ ih =>
      refine Suffices.operand ?_ rfl
      have harguments := hseparated.suffices (by decide) fun piece hpiece =>
        (ih piece hpiece).of_disjunction
      rw [← Expr.kindsOfAll_eq_map] at harguments
      simp [Suffices, Expr.kinds] at harguments ⊢
      omega
  | list hseparated _ ih =>
      refine Suffices.operand ?_ rfl
      have helements := hseparated.suffices (by decide) fun piece hpiece =>
        (ih piece hpiece).of_disjunction
      rw [← Expr.kindsOfAll_eq_map] at helements
      simpa [Suffices, Expr.kinds] using helements
  | @record position input rest entries hseparated hkeys _ ih =>
      refine Suffices.operand ?_ rfl
      have hentry : ∀ piece ∈ entries.map Entry.piece,
          Suffices (.text piece.tree.1 :: .symbol .colon :: piece.tree.2.kinds) piece.start
            piece.stop := by
        intro piece hpiece
        obtain ⟨entry, hmem, rfl⟩ := List.mem_map.mp hpiece
        have hvalue := (ih entry hmem).of_disjunction
        have hkey := (hkeys entry hmem).parenthesesIn_eq
        simpa [Suffices, Entry.piece, hkey] using hvalue
      have hentries : Suffices (commaList .rightBrace
          (((entries.map Entry.piece).map Piece.tree).map fun entry =>
            .text entry.1 :: .symbol .colon :: entry.2.kinds)) input rest :=
        hseparated.suffices (by decide) hentry
      have htrees : (entries.map Entry.piece).map Piece.tree =
          entries.map fun entry => (entry.key, entry.value) := by
        rw [List.map_map]
        rfl
      rw [← Expr.kindsOfEntries_eq_map, htrees] at hentries
      simpa [Suffices, Expr.kinds] using hentries
  | @parentheses opening closing input rest inner _ ih =>
      have hinner := ih.of_disjunction
      have hcount := parentheses_operand_le Level.primary.rank inner.level inner.kinds
      simp [Suffices] at hinner ⊢
      omega

theorem Parenthesized.suffices {input rest : List Token} {tree : Expr}
    (h : Parenthesized input rest tree) : Suffices (inParentheses tree.kinds) input rest := by
  obtain ⟨opening, closing, inner, rfl, hinner⟩ := h
  have hcount := hinner.suffices.of_disjunction
  simp [Suffices] at hcount ⊢
  omega

theorem RangeStep.suffices {input rest : List Token} {step : Option Expr}
    (h : RangeStep input rest step) : Suffices (Expr.kindsOfStep step) input rest := by
  cases h with
  | none => simp [Suffices, Expr.kindsOfStep]
  | some hstep =>
      have hcount := hstep.suffices.of_disjunction
      simpa [Suffices, Expr.kindsOfStep] using hcount

theorem parameters_suffice {input rest : List Token} {parameters : List String}
    (h : CommaList .rightParen Word input rest parameters) :
    Suffices (commaList .rightParen (parameters.map fun parameter => [.word parameter]))
      input rest := by
  obtain ⟨pieces, hseparated, hwords, rfl⟩ := h
  refine hseparated.suffices (by decide) fun piece hpiece => ?_
  obtain ⟨position, hstart⟩ := hwords piece hpiece
  simp [Suffices, hstart]

theorem Lines.suffices {input rest : List Token} {pieces : List (Piece Stmt)}
    (h : Lines input pieces rest)
    (hpieces : ∀ piece ∈ pieces, Suffices piece.tree.kinds piece.start piece.stop) :
    Suffices (Stmt.kindsOfBlock (pieces.map Piece.tree)) input rest := by
  induction h with
  | done hnewlines => simp [Suffices, Stmt.kindsOfBlock, hnewlines.parenthesesIn_eq]
  | @more _ _ piece pieces hstart _ ih =>
      have hpiece := hpieces piece (by simp)
      have hothers := ih fun other hother => hpieces other (by simp [hother])
      have hfront := hstart.parenthesesIn_eq
      simp [Suffices, Stmt.kindsOfBlock] at hpiece hothers ⊢
      omega

theorem Braced.suffices {input rest : List Token} {pieces : List (Piece Stmt)}
    (h : Braced input pieces rest)
    (hpieces : ∀ piece ∈ pieces, Suffices piece.tree.kinds piece.start piece.stop) :
    Suffices (Stmt.kindsOfBlock (pieces.map Piece.tree)) input rest := by
  obtain ⟨opening, closing, inner, hnewlines, hlines⟩ := h
  have hcount := hlines.suffices hpieces
  have hfront := hnewlines.parenthesesIn_eq
  simp [Suffices] at hcount hfront ⊢
  omega

/-- The braces around an alternative make no difference. -/
theorem parentheses_kindsOfElse (block : List Stmt) :
    parentheses (Stmt.kindsOfElse (some block)) = parentheses (Stmt.kindsOfBlock block) := by
  cases block with
  | nil => simp [Stmt.kindsOfElse, Stmt.kindsOfBlock]
  | cons statement rest =>
      by_cases hchain : (statement.isBranch && rest.isEmpty) = true
      · have hrest : rest = [] := by simpa using (Bool.and_eq_true_iff.mp hchain).2
        have hbranch := (Bool.and_eq_true_iff.mp hchain).1
        subst hrest
        simp [Stmt.kindsOfElse, Stmt.kindsOfBlock, hbranch]
      · rw [Stmt.kindsOfElse, if_neg hchain, parentheses_cons, parentheses_inBraces]
        simp [Stmt.kindsOfBlock]

theorem Statement.suffices {form : Form} {input rest : List Token} {tree : Stmt}
    (h : Statement form input rest tree) : Suffices tree.kinds input rest := by
  induction h with
  | bare _ ih => exact ih
  | opened _ ih => simpa [Suffices] using ih
  | print hvalue =>
      have hcount := hvalue.suffices
      simpa [Suffices, Stmt.kinds] using hcount
  | declare hvalue =>
      have hcount := hvalue.suffices.of_disjunction
      simpa [Suffices, Stmt.kinds] using hcount
  | branch hcondition hyes _ ih =>
      have htest := hcondition.suffices
      have hblock := hyes.suffices ih
      simp [Suffices, Stmt.kinds, Stmt.kindsOfElse] at htest hblock ⊢
      omega
  | branchElse hcondition hyes _ hnewlines hno _ ihyes ihno =>
      have htest := hcondition.suffices
      have hblock := hyes.suffices ihyes
      have hother := hno.suffices ihno
      have hcount := hnewlines.parenthesesIn_eq
      simp [Suffices, Stmt.kinds, parentheses_kindsOfElse] at htest hblock hother hcount ⊢
      omega
  | branchElseIf hcondition hyes _ hnewlines _ ihyes ihno =>
      have htest := hcondition.suffices
      have hblock := hyes.suffices ihyes
      have hcount := hnewlines.parenthesesIn_eq
      simp [Suffices, Stmt.kinds, parentheses_kindsOfElse,
        Stmt.kindsOfBlock] at htest hblock hcount ihno ⊢
      omega
  | loop hcondition hbody _ ih =>
      have htest := hcondition.suffices
      have hblock := hbody.suffices ih
      simp [Suffices, Stmt.kinds] at htest hblock ⊢
      omega
  | range hfirst hbound hstep hbody _ ih =>
      have hstart := hfirst.suffices.of_disjunction
      have hstop := hbound.suffices.of_disjunction
      have hwidth := hstep.suffices
      have hblock := hbody.suffices ih
      simp [Suffices, Stmt.kinds] at hstart hstop hwidth hblock ⊢
      omega
  | define hparameters hbody _ ih =>
      have hlist := parameters_suffice hparameters
      have hblock := hbody.suffices ih
      simp [Suffices, Stmt.kinds] at hlist hblock ⊢
      omega
  | giveBack => simp [Suffices, Stmt.kinds, Expr.kindsOfOption]
  | giveBackValue hvalue =>
      have hcount := hvalue.suffices.of_disjunction
      simpa [Suffices, Stmt.kinds, Expr.kindsOfOption] using hcount
  | leave => simp [Suffices, Stmt.kinds]
  | proceed => simp [Suffices, Stmt.kinds]
  | attempt hbody _ hnewlines hhandler _ ihbody ihhandler =>
      have hblock := hbody.suffices ihbody
      have hother := hhandler.suffices ihhandler
      have hcount := hnewlines.parenthesesIn_eq
      simp [Suffices, Stmt.kinds] at hblock hother hcount ⊢
      omega
  | assign hvalue =>
      have hcount := hvalue.suffices.of_disjunction
      simpa [Suffices, Stmt.kinds] using hcount
  | assignIndex hplace hvalue =>
      have hindex := hplace.suffices.of_disjunction
      have hcount := hvalue.suffices.of_disjunction
      simp [Suffices, Stmt.kinds] at hindex hcount ⊢
      omega
  | assignProperty hvalue =>
      have hcount := hvalue.suffices.of_disjunction
      simpa [Suffices, Stmt.kinds] using hcount
  | call hcall =>
      have hcount := hcall.suffices
      exact hcount

end Grammar

open Grammar

/-- However a program is spelled, its source text has no fewer parentheses than the printed one. -/
theorem Program.parentheses_kinds_le {source : String} {program : Program}
    (h : parse source = .ok program) :
    parentheses program.kinds ≤ parenthesesIn (Lexer.lex source).tokens := by
  obtain ⟨pieces, rest, hlines, hphrases, rfl⟩ := Program.exists_lines_of_parse h
  have hcount := hlines.suffices fun piece hpiece => (hphrases piece hpiece).suffices
  exact Nat.le_trans (Nat.le_add_right _ _) hcount

end Bhasha
