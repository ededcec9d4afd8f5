import Bhasha.Proofs.Grammar.Follow
import Bhasha.Proofs.Program.Lines

/-!
# The lines of derived trees

A node gets its line from a token of the phrase that spells it.  So whatever holds of the lines
of all tokens of a phrase holds of the lines of its tree.
-/

namespace Bhasha

namespace Grammar

/-- All tokens stand on lines with a property. -/
def OnLines (good : Nat → Prop) (tokens : List Token) : Prop :=
  ∀ token ∈ tokens, good token.line

variable {good : Nat → Prop}

theorem OnLines.of_suffix {input rest : List Token} (h : OnLines good input)
    (hsuffix : rest <:+ input) : OnLines good rest :=
  fun token htoken => h token (hsuffix.mem htoken)

theorem onLines_cons {kind : TokenKind} {position : Position} {rest : List Token} :
    OnLines good (⟨kind, position⟩ :: rest) ↔ good position.line ∧ OnLines good rest := by
  simp [OnLines, Token.line]

theorem lines_of_join? {level : Level} {kind : TokenKind} {join : Expr → Expr → Nat → Expr}
    (h : level.join? kind = some join) (left right : Expr) (line : Nat) :
    (join left right line).lines = line :: (left.lines ++ right.lines) := by
  unfold Level.join? at h
  split at h <;> cases h <;> rfl

theorem linesOfAll_of_pieces {pieces : List (Piece Expr)}
    (h : ∀ piece ∈ pieces, ∀ line ∈ piece.tree.lines, good line) :
    ∀ line ∈ Expr.linesOfAll (pieces.map Piece.tree), good line := by
  intro line hline
  obtain ⟨expr, hexpr, hmem⟩ := Expr.mem_linesOfAll.mp hline
  obtain ⟨piece, hpiece, rfl⟩ := List.mem_map.mp hexpr
  exact h piece hpiece line hmem

theorem linesOfBlock_of_pieces {pieces : List (Piece Stmt)}
    (h : ∀ piece ∈ pieces, ∀ line ∈ piece.tree.lines, good line) :
    ∀ line ∈ Stmt.linesOfBlock (pieces.map Piece.tree), good line := by
  intro line hline
  obtain ⟨statement, hstatement, hmem⟩ := Stmt.mem_linesOfBlock.mp hline
  obtain ⟨piece, hpiece, rfl⟩ := List.mem_map.mp hstatement
  exact h piece hpiece line hmem

theorem Expression.lines_good {level : Level} {input rest : List Token} {tree : Expr}
    (h : Expression level input rest tree) (hinput : OnLines good input) :
    ∀ line ∈ tree.lines, good line := by
  induction h with
  | tighter _ _ ih => exact ih hinput
  | @joined _ _ _ position _ middle _ _ left right hjoin _ hleft _ ihleft ihright =>
      have hbehind := hinput.of_suffix hleft.consumes.1
      rw [onLines_cons] at hbehind
      rw [lines_of_join? hjoin]
      simp only [List.forall_mem_cons, List.forall_mem_append]
      exact ⟨hbehind.1, ihleft hinput, ihright hbehind.2⟩
  | sign _ _ ih =>
      rw [onLines_cons] at hinput
      simp only [Expr.lines, List.forall_mem_cons]
      exact ⟨hinput.1, ih hinput.2⟩
  | index htarget _ ihtarget ihplace =>
      have hbehind := hinput.of_suffix htarget.consumes.1
      rw [onLines_cons] at hbehind
      simp only [Expr.lines, List.forall_mem_cons, List.forall_mem_append]
      exact ⟨hbehind.1, ihtarget hinput, ihplace hbehind.2⟩
  | property htarget ih =>
      have hbehind := hinput.of_suffix htarget.consumes.1
      rw [onLines_cons] at hbehind
      simp only [Expr.lines, List.forall_mem_cons]
      exact ⟨hbehind.1, ih hinput⟩
  | constant _ =>
      rw [onLines_cons] at hinput
      simpa [Expr.lines] using hinput.1
  | var =>
      rw [onLines_cons] at hinput
      simpa [Expr.lines] using hinput.1
  | call hseparated hpieces ih =>
      rw [onLines_cons, onLines_cons] at hinput
      have hstarts := hseparated.start_suffix fun piece hpiece => (hpieces piece hpiece).consumes
      simp only [Expr.lines, List.forall_mem_cons]
      refine ⟨hinput.1, linesOfAll_of_pieces fun piece hpiece => ?_⟩
      exact ih piece hpiece (hinput.2.2.of_suffix (hstarts piece hpiece))
  | list hseparated hpieces ih =>
      rw [onLines_cons] at hinput
      have hstarts := hseparated.start_suffix fun piece hpiece => (hpieces piece hpiece).consumes
      simp only [Expr.lines, List.forall_mem_cons]
      refine ⟨hinput.1, linesOfAll_of_pieces fun piece hpiece => ?_⟩
      exact ih piece hpiece (hinput.2.of_suffix (hstarts piece hpiece))
  | @record position input rest entries hseparated hkeys hvalues ih =>
      rw [onLines_cons] at hinput
      have hpieces : ∀ piece ∈ entries.map Entry.piece, Consumes piece.start piece.stop := by
        intro piece hpiece
        obtain ⟨entry, hentry, rfl⟩ := List.mem_map.mp hpiece
        exact (hvalues entry hentry).consumes.of_suffix (hkeys entry hentry).suffix
      have hstarts := hseparated.start_suffix hpieces
      simp only [Expr.lines, List.forall_mem_cons]
      refine ⟨hinput.1, fun line hline => ?_⟩
      obtain ⟨pair, hpair, hmem⟩ := Expr.mem_linesOfEntries.mp hline
      obtain ⟨entry, hentry, rfl⟩ := List.mem_map.mp hpair
      have hstart := hinput.2.of_suffix (hstarts entry.piece (List.mem_map_of_mem hentry))
      exact ih entry hentry (hstart.of_suffix (hkeys entry hentry).suffix) line hmem
  | parentheses _ ih =>
      rw [onLines_cons] at hinput
      exact ih hinput.2

theorem Parenthesized.lines_good {input rest : List Token} {tree : Expr}
    (h : Parenthesized input rest tree) (hinput : OnLines good input) :
    ∀ line ∈ tree.lines, good line := by
  obtain ⟨opening, closing, inner, rfl, hinner⟩ := h
  rw [onLines_cons] at hinput
  exact hinner.lines_good hinput.2

theorem RangeStep.lines_good {input rest : List Token} {step : Option Expr}
    (h : RangeStep input rest step) (hinput : OnLines good input) :
    ∀ line ∈ Expr.linesOfOption step, good line := by
  cases h with
  | none => simp [Expr.linesOfOption]
  | some hstep =>
      rw [onLines_cons] at hinput
      exact hstep.lines_good hinput.2

/-- The lines of a block, given those of its statements. -/
theorem Braced.lines_good {input rest : List Token} {pieces : List (Piece Stmt)}
    (h : Braced input pieces rest)
    (hpieces : ∀ piece ∈ pieces, Statement .any piece.start piece.stop piece.tree)
    (hlines : ∀ piece ∈ pieces, OnLines good piece.start → ∀ line ∈ piece.tree.lines, good line)
    (hinput : OnLines good input) :
    ∀ line ∈ Stmt.linesOfBlock (pieces.map Piece.tree), good line := by
  obtain ⟨opening, closing, inner, hnewlines, hinner⟩ := h
  have hopening := hinput.of_suffix hnewlines.suffix
  rw [onLines_cons] at hopening
  have hstarts := hinner.start_suffix fun piece hpiece => (hpieces piece hpiece).consumes
  apply linesOfBlock_of_pieces
  intro piece hpiece
  exact hlines piece hpiece (hopening.2.of_suffix (hstarts piece hpiece))

theorem Statement.lines_good {form : Form} {input rest : List Token} {tree : Stmt}
    (h : Statement form input rest tree) (hinput : OnLines good input) :
    ∀ line ∈ tree.lines, good line := by
  induction h with
  | bare _ ih => exact ih hinput
  | opened _ ih =>
      rw [onLines_cons] at hinput
      exact ih hinput.2
  | print hvalue =>
      rw [onLines_cons, onLines_cons] at hinput
      simp only [Stmt.lines, List.forall_mem_cons]
      exact ⟨hinput.1, hvalue.lines_good hinput.2.2⟩
  | declare hvalue =>
      simp only [onLines_cons] at hinput
      simp only [Stmt.lines, List.forall_mem_cons]
      exact ⟨hinput.1, hvalue.lines_good hinput.2.2.2.2.2⟩
  | branch hcondition hyes hpieces ih =>
      rw [onLines_cons] at hinput
      have hmiddle := hinput.2.of_suffix hcondition.consumes.1
      simp only [Stmt.lines, Stmt.linesOfOption, List.forall_mem_cons, List.forall_mem_append]
      exact ⟨hinput.1, hcondition.lines_good hinput.2, hyes.lines_good hpieces ih hmiddle, by simp⟩
  | branchElse hcondition hyes hpieces hnewlines hno hothers ih ihno =>
      rw [onLines_cons] at hinput
      have hmiddle := hinput.2.of_suffix hcondition.consumes.1
      have hyesConsumes := hyes.consumes fun piece hpiece => (hpieces piece hpiece).consumes
      have hother := (hmiddle.of_suffix hyesConsumes.1).of_suffix hnewlines.suffix
      rw [onLines_cons] at hother
      simp only [Stmt.lines, Stmt.linesOfOption, List.forall_mem_cons, List.forall_mem_append]
      exact ⟨hinput.1, hcondition.lines_good hinput.2, hyes.lines_good hpieces ih hmiddle,
        hno.lines_good hothers ihno hother.2⟩
  | @branchElseIf _ _ _ _ _ _ _ _ _ _ no hcondition hyes hpieces hnewlines _ ih ihno =>
      rw [onLines_cons] at hinput
      have hmiddle := hinput.2.of_suffix hcondition.consumes.1
      have hyesConsumes := hyes.consumes fun piece hpiece => (hpieces piece hpiece).consumes
      have hother := (hmiddle.of_suffix hyesConsumes.1).of_suffix hnewlines.suffix
      rw [onLines_cons] at hother
      simp only [Stmt.lines, Stmt.linesOfOption, Stmt.linesOfBlock, List.append_nil,
        List.forall_mem_cons, List.forall_mem_append]
      exact ⟨hinput.1, hcondition.lines_good hinput.2, hyes.lines_good hpieces ih hmiddle,
        ihno hother.2⟩
  | loop hcondition hbody hpieces ih =>
      rw [onLines_cons] at hinput
      have hmiddle := hinput.2.of_suffix hcondition.consumes.1
      simp only [Stmt.lines, List.forall_mem_cons, List.forall_mem_append]
      exact ⟨hinput.1, hcondition.lines_good hinput.2, hbody.lines_good hpieces ih hmiddle⟩
  | range hfirst hbound hstep hbody hpieces ih =>
      simp only [onLines_cons] at hinput
      obtain ⟨hline, -, -, -, hstart⟩ := hinput
      have hsamma := hstart.of_suffix hfirst.consumes.1
      rw [onLines_cons] at hsamma
      have hthird := hsamma.2.of_suffix hbound.consumes.1
      have hclosing := hthird.of_suffix hstep.suffix
      rw [onLines_cons] at hclosing
      simp only [Stmt.lines, List.forall_mem_cons, List.forall_mem_append]
      exact ⟨hline, hfirst.lines_good hstart, hbound.lines_good hsamma.2, hstep.lines_good hthird,
        hbody.lines_good hpieces ih hclosing.2⟩
  | define hparameters hbody hpieces ih =>
      simp only [onLines_cons] at hinput
      obtain ⟨hline, -, -, hstart⟩ := hinput
      have hmiddle := hstart.of_suffix hparameters.suffix
      simp only [Stmt.lines, List.forall_mem_cons]
      exact ⟨hline, hbody.lines_good hpieces ih hmiddle⟩
  | giveBack =>
      rw [onLines_cons] at hinput
      simpa [Stmt.lines, Expr.linesOfOption] using hinput.1
  | giveBackValue hvalue =>
      rw [onLines_cons] at hinput
      simp only [Stmt.lines, Expr.linesOfOption, List.forall_mem_cons]
      exact ⟨hinput.1, hvalue.lines_good hinput.2⟩
  | leave =>
      rw [onLines_cons] at hinput
      simpa [Stmt.lines] using hinput.1
  | proceed =>
      rw [onLines_cons] at hinput
      simpa [Stmt.lines] using hinput.1
  | attempt hbody hpieces hnewlines hhandler hothers ih ihhandler =>
      rw [onLines_cons] at hinput
      have hbodyConsumes := hbody.consumes fun piece hpiece => (hpieces piece hpiece).consumes
      have hclause := (hinput.2.of_suffix hbodyConsumes.1).of_suffix hnewlines.suffix
      simp only [onLines_cons] at hclause
      simp only [Stmt.lines, List.forall_mem_cons, List.forall_mem_append]
      exact ⟨hinput.1, hbody.lines_good hpieces ih hinput.2,
        hhandler.lines_good hothers ihhandler hclause.2.2.2.2⟩
  | assign hvalue =>
      rw [onLines_cons, onLines_cons] at hinput
      simp only [Stmt.lines, List.forall_mem_cons]
      exact ⟨hinput.1, hvalue.lines_good hinput.2.2⟩
  | assignIndex hplace hvalue =>
      rw [onLines_cons, onLines_cons] at hinput
      have hsign := hinput.2.2.of_suffix hplace.consumes.1
      rw [onLines_cons, onLines_cons] at hsign
      simp only [Stmt.lines, List.forall_mem_cons, List.forall_mem_append]
      exact ⟨hinput.1, hplace.lines_good hinput.2.2, hvalue.lines_good hsign.2.2⟩
  | assignProperty hvalue =>
      simp only [onLines_cons] at hinput
      simp only [Stmt.lines, List.forall_mem_cons]
      exact ⟨hinput.1, hvalue.lines_good hinput.2.2.2.2⟩
  | call hcall =>
      have hlines := hcall.lines_good hinput
      rw [onLines_cons] at hinput
      simp only [Stmt.lines, List.forall_mem_cons]
      exact ⟨hinput.1, hlines⟩

theorem Lines.lines_good {input rest : List Token} {pieces : List (Piece Stmt)}
    (h : Lines input pieces rest)
    (hphrases : ∀ piece ∈ pieces, Statement .any piece.start piece.stop piece.tree)
    (hinput : OnLines good input) :
    ∀ line ∈ Stmt.linesOfBlock (pieces.map Piece.tree), good line := by
  have hstarts := h.start_suffix fun piece hpiece => (hphrases piece hpiece).consumes
  apply linesOfBlock_of_pieces
  intro piece hpiece
  exact (hphrases piece hpiece).lines_good (hinput.of_suffix (hstarts piece hpiece))

end Grammar

end Bhasha
