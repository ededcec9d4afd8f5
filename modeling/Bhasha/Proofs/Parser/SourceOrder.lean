import Bhasha.Proofs.Grammar.SourceOrder
import Bhasha.Proofs.Parser.Acceptance

/-!
# Programs are in source order

The lexer never goes back to an earlier line, so the lines of the tokens do not decrease.  A program
that is read from them is in source order, in all its statements and expressions.
-/

namespace Bhasha

open Grammar

namespace Position

theorem line_le_after (position : Position) (text : List Char) :
    position.line ≤ (position.after text).line := by
  induction text generalizing position with
  | nil => exact Nat.le_refl _
  | cons c rest ih =>
      have hnext : position.line ≤ (position.next c).line := by
        unfold next
        split <;> simp
      exact Nat.le_trans hnext (ih (position.next c))

end Position

namespace Lexer

/-- The tokens of a text stand on lines that do not decrease, none of them in front of the text. -/
theorem ascending_lexFrom (position : Position) (text : List Char) :
    OnLines (position.line ≤ ·) (lexFrom position text).tokens ∧
      Ascending (lexFrom position text).tokens := by
  fun_induction lexFrom position text with
  | case1 | case4 | case5 => exact ⟨by simp [OnLines], .nil⟩
  | case2 position first rest extra hstep ih =>
      have hline := position.line_le_after (first :: rest.take extra)
      exact ⟨fun token htoken => Nat.le_trans hline (ih.1 token htoken), ih.2⟩
  | case3 position first rest kind extra hstep later ih =>
      have hline := position.line_le_after (first :: rest.take extra)
      have hbehind : OnLines (position.line ≤ ·) later.tokens :=
        fun token htoken => Nat.le_trans hline (ih.1 token htoken)
      exact ⟨onLines_cons.mpr ⟨Nat.le_refl _, hbehind⟩, List.pairwise_cons.mpr ⟨hbehind, ih.2⟩⟩

end Lexer

/-- **The lines of a program follow its source.** -/
theorem Program.inOrder_of_parse {source : String} {program : Program}
    (h : Program.parse source = .ok program) : program.InOrder := by
  obtain ⟨tokens, position, hlex, hprogram⟩ := Program.exists_tokens_of_parse h
  have hascending := (Lexer.ascending_lexFrom .start source.toList).2
  rw [show Lexer.lexFrom .start source.toList = _ from hlex] at hascending
  exact hprogram.inOrder hascending

/-- A list that goes over two lines, in a branch. -/
theorem Program.inOrder_of_parse_branch :
    let source := "yadi (a) \x7b\n b = [c,\n d + e]\n\x7d"
    ∃ program, Program.parse source = .ok program ∧
      program.lines = [1, 1, 2, 2, 2, 3, 3, 3] ∧ program.InOrder := by
  intro source
  have hlines : (Program.parse source).toOption.map Program.lines =
      some [1, 1, 2, 2, 2, 3, 3, 3] := by
    decide +kernel
  obtain ⟨program, hprogram, hlines⟩ := Option.map_eq_some_iff.mp hlines
  have hparse : Program.parse source = .ok program := by
    cases hresult : Program.parse source with
    | error error => simp [hresult, Except.toOption] at hprogram
    | ok other => simpa [hresult, Except.toOption] using hprogram
  exact ⟨program, hparse, hlines, Program.inOrder_of_parse hparse⟩

end Bhasha
