import Bhasha.Proofs.Grammar.Parentheses
import Bhasha.Proofs.Grammar.PrintedStatement
import Bhasha.Proofs.Parser.Acceptance

/-!
# Printing and parsing

Printing is undone by parsing.  The spelling of the tokens is undone by the lexer, and the parser
reads every program that the grammar derives, so nothing but the lines of the nodes is lost.  No
other source text of the program has fewer parentheses.
-/

namespace Bhasha

/-- A source text whose tokens are those of a printed program is parsed as this program, up to
the lines, whatever its blanks and comments are. -/
theorem Program.parse_of_kinds {style : Style} {program : Program} (h : program.Printable style)
    {source : String} {tokens : List Token} {final : Position}
    (hlex : Lexer.lex source = ⟨tokens, .ok final⟩)
    (htokens : tokens.map Token.kind = program.kinds) :
    ∃ parsed, Program.parse source = .ok parsed ∧
      parsed.relabel (fun _ => 0) = program.relabel fun _ => 0 := by
  obtain ⟨parsed, hphrase, hparsed⟩ := Grammar.program_of_kinds h htokens
  exact ⟨parsed, Program.parse_of_derived hlex hphrase, hparsed⟩

theorem Program.exists_lex_print {style : Style} {program : Program}
    (h : program.Printable style) :
    ∃ tokens final, Lexer.lex (program.print style) = ⟨tokens, .ok final⟩ ∧
      tokens.map Token.kind = program.kinds := by
  obtain ⟨tokens, final, hlex, htokens⟩ :=
    Lexer.lexFrom_render (Stmt.allSpellable_block program h) .start
  refine ⟨tokens, final, ?_, htokens⟩
  unfold Lexer.lex Program.print
  rw [String.toList_ofList]
  exact hlex

/-- Parsing the source text of a program gives the program back, up to the lines of its nodes, and
this source text has the fewest parentheses of all that do so. -/
theorem Program.parse_print (style : Style) (program : Program) (h : program.Printable style) :
    (∃ parsed, Program.parse (program.print style) = .ok parsed ∧
      parsed.relabel (fun _ => 0) = program.relabel fun _ => 0) ∧
    ∀ source parsed, Program.parse source = .ok parsed →
      (parsed.relabel fun _ => 0) = (program.relabel fun _ => 0) →
        Grammar.parenthesesIn (Lexer.lex (program.print style)).tokens ≤
          Grammar.parenthesesIn (Lexer.lex source).tokens := by
  obtain ⟨tokens, final, hlex, htokens⟩ := Program.exists_lex_print h
  refine ⟨Program.parse_of_kinds h hlex htokens, fun source parsed hparse hsame => ?_⟩
  have hkinds : parsed.kinds = program.kinds := by
    rw [← parsed.kinds_relabel fun _ => 0, hsame, program.kinds_relabel]
  rw [hlex, Grammar.parenthesesIn, htokens, ← hkinds]
  exact Program.parentheses_kinds_le hparse

/-- Operators of one level, a property of a number, quotes in a text, and a chain of branches. -/
theorem Program.parse_print_chain :
    let one : Numeral := .ofDigit '1' rfl
    let style : Style := ⟨fun _ => one, fun _ => .double⟩
    let number : Expr := .literal (.number one.value) 0
    let program : Program :=
      [.assign "a" (.binary .subtract number
          (.binary .subtract (.unary .negate (.property number "b" 0) 0) number 0) 0) 0,
        .branch (.var "a" 0) [.giveBack none 0]
          (some [.branch (.unary .not (.var "a" 0) 0) [] (some []) 0]) 0,
        .expression (.call "f" [.literal (.text "\"\\\n") 0, .list [] 0] 0) 0]
    program.print style =
        "a = 1 - ( - 1 . b - 1 )\n" ++
        "yadi ( a ) \x7b\nfirta\n\x7d anya yadi ( ! a ) \x7b\n\x7d anya \x7b\n\x7d\n" ++
        "f ( \"\\\"\\\\\n\" , [ ] )\n" ∧
      program.Printable style ∧
      (∃ parsed, Program.parse (program.print style) = .ok parsed ∧
        parsed.relabel (fun _ => 0) = program.relabel fun _ => 0) ∧
      ∀ source parsed, Program.parse source = .ok parsed →
        (parsed.relabel fun _ => 0) = (program.relabel fun _ => 0) →
          Grammar.parenthesesIn (Lexer.lex (program.print style)).tokens ≤
            Grammar.parenthesesIn (Lexer.lex source).tokens := by
  intro one style number program
  have hprint : program.print style =
        "a = 1 - ( - 1 . b - 1 )\n" ++
        "yadi ( a ) \x7b\nfirta\n\x7d anya yadi ( ! a ) \x7b\n\x7d anya \x7b\n\x7d\n" ++
        "f ( \"\\\"\\\\\n\" , [ ] )\n" := by
    decide +kernel
  have hprintable : program.Printable style := by
    simp [program, style, number, Program.Printable, Stmt.PrintableBlock, Stmt.Printable,
      Stmt.PrintableElse, Expr.Printable, Expr.PrintableAll, Expr.PrintableOption,
      Literal.Printable, Expr.isCall]
    decide
  exact ⟨hprint, hprintable, Program.parse_print style program hprintable⟩

end Bhasha
