import Bhasha.Proofs.Grammar.Carried
import Bhasha.Proofs.Parser.Acceptance

/-!
# Source texts one after the other

Two source texts that are parsed can be put one after the other, with a newline between them.  The
newline ends a comment or a return at the end of the first text, and the second text starts with a
statement of its own, which does not go on with anything in front of it.  So the programs are put
one after the other too.  The lines of the second one are moved by those of the first text, and a
text literal over several lines counts with all of its lines.
-/

namespace Bhasha

namespace Lexer

theorem after_split (position : Position) (first : Char) (rest : List Char) (extra : Nat) :
    (position.after (first :: rest.take extra)).after (rest.drop extra) =
      position.after (first :: rest) := by
  rw [← Position.after_append, List.cons_append, List.take_append_drop]

/-- The end of a source text that is made of tokens is the position after all its characters. -/
theorem last_of_lexFrom {position last : Position} {text : List Char} {tokens : List Token}
    (h : lexFrom position text = ⟨tokens, .ok last⟩) : last = position.after text := by
  induction position, text using lexFrom.induct generalizing tokens with
  | case1 position =>
      rw [lexFrom] at h
      cases h
      rfl
  | case2 position first rest extra hstep ih =>
      rw [lexFrom_skip hstep] at h
      rw [ih h, after_split]
  | case3 position first rest kind extra hstep ih =>
      obtain ⟨later, hlater, -⟩ := (lexFrom_token hstep).mp h
      rw [ih hlater, after_split]
  | case4 position first rest hstep =>
      rw [lexFrom, hstep] at h
      cases h
  | case5 position first rest hstep =>
      rw [lexFrom, hstep] at h
      cases h

theorem line_of_lex {source : String} {tokens : List Token} {last : Position}
    (h : lex source = ⟨tokens, .ok last⟩) : last.line = 1 + source.toList.count '\n' := by
  have hlast := last_of_lexFrom h
  rw [hlast, Position.start_after]

theorem lex_newline_between {first second : String} {tokens others : List Token}
    {last final : Position} (hfirst : lex first = ⟨tokens, .ok last⟩)
    (hsecond : lex second = ⟨others, .ok final⟩) :
    lex (first ++ "\n" ++ second) =
      ⟨tokens ++ ⟨.newline, last⟩ :: Grammar.carried (· + last.line) [] others,
        .ok (final.relabel (· + last.line))⟩ := by
  have hstart : Position.start.relabel (· + last.line) = last.next '\n' := by
    simp [Position.start, Position.relabel, Position.next, Nat.add_comm]
  have hbehind := lexFrom_relabel last.line hsecond
  rw [hstart] at hbehind
  have htext : (first ++ "\n" ++ second).toList = first.toList ++ '\n' :: second.toList := by
    simp
  unfold lex
  rw [htext, Grammar.carried, List.append_nil]
  exact lexFrom_join hfirst hbehind

end Lexer

namespace Grammar

theorem Lines.append {α : Type} {input middle rest : List Token} {pieces others : List (Piece α)}
    (h : Lines input pieces middle) (hothers : Lines middle others rest) :
    Lines input (pieces ++ others) rest := by
  induction h with
  | done hnewlines => exact hothers.of_newlines hnewlines
  | more hnewlines _ ih => exact .more hnewlines (ih hothers)

theorem carried_id (tail tokens : List Token) : carried id tail tokens = tokens ++ tail := by
  have hplace : Token.relabel id = id := rfl
  rw [carried, hplace, List.map_id]

theorem program_relabel_id (program : Bhasha.Program) : program.relabel id = program :=
  Stmt.relabelBlock_eq_self program fun _ _ => rfl

/-- The newline in front of the second program ends a return at the end of the first one. -/
theorem program_append {label : Nat → Nat} {tokens others : List Token} {last : Position}
    {first second : Bhasha.Program} (hfirst : Program tokens first)
    (hsecond : Program others second) :
    Program (tokens ++ ⟨.newline, last⟩ :: carried label [] others)
      (first ++ second.relabel label) := by
  have hends : EndsReturn (⟨.newline, last⟩ :: carried label [] others) := .inl rfl
  obtain ⟨pieces, hlines, hphrases, hfirstTrees⟩ := hfirst.carried hends
  obtain ⟨further, hfurther, hfurtherPhrases, hsecondTrees⟩ :=
    @Program.carried label [] others second hsecond trivial
  rw [carried_id] at hlines
  rw [program_relabel_id] at hfirstTrees
  have hbehind : Lines (⟨.newline, last⟩ :: carried label [] others) further [] :=
    hfurther.of_newlines (.more (.none _))
  refine ⟨pieces ++ further, hlines.append hbehind, ?_, ?_⟩
  · exact List.forall_mem_append.mpr ⟨hphrases, hfurtherPhrases⟩
  · rw [hfirstTrees, hsecondTrees, List.map_append]

end Grammar

/-- The program of a source text with a newline and another source text behind it. -/
theorem Program.parse_append {first second : String} {program further : Program}
    (hfirst : parse first = .ok program) (hsecond : parse second = .ok further) :
    parse (first ++ "\n" ++ second) =
      .ok (program ++ further.relabel (· + (1 + first.toList.count '\n'))) := by
  obtain ⟨tokens, last, hlex, hphrase⟩ := exists_tokens_of_parse hfirst
  obtain ⟨others, final, hother, hotherPhrase⟩ := exists_tokens_of_parse hsecond
  rw [← Lexer.line_of_lex hlex]
  exact parse_of_derived (Lexer.lex_newline_between hlex hother)
    (Grammar.program_append hphrase hotherPhrase)

/-- A text literal over two lines, and a return with a comment behind it. -/
theorem Program.parse_append_return :
    parse "x = 'a\nb'\nfirta # x" =
        .ok [.assign "x" (.literal (.text "a\nb") 1) 1, .giveBack none 3] ∧
      parse "f()" = .ok [.expression (.call "f" [] 1) 1] ∧
      parse ("x = 'a\nb'\nfirta # x" ++ "\n" ++ "f()") =
        .ok [.assign "x" (.literal (.text "a\nb") 1) 1, .giveBack none 3,
          .expression (.call "f" [] 4) 4] := by
  have hlex : Lexer.lex "x = 'a\nb'\nfirta # x" =
      ⟨[⟨.word "x", ⟨1, 1⟩⟩, ⟨.symbol .assign, ⟨1, 3⟩⟩, ⟨.text "a\nb", ⟨1, 5⟩⟩,
        ⟨.newline, ⟨2, 3⟩⟩, ⟨.keyword .firta, ⟨3, 1⟩⟩], .ok ⟨3, 10⟩⟩ :=
    Lexed.eq_of_tokens (by decide +kernel) (by decide +kernel)
  have hother : Lexer.lex "f()" =
      ⟨[⟨.word "f", ⟨1, 1⟩⟩, ⟨.symbol .leftParen, ⟨1, 2⟩⟩, ⟨.symbol .rightParen, ⟨1, 3⟩⟩],
        .ok ⟨1, 4⟩⟩ :=
    Lexed.eq_of_tokens (by decide +kernel) (by decide +kernel)
  have hfirst : parse "x = 'a\nb'\nfirta # x" =
      .ok [.assign "x" (.literal (.text "a\nb") 1) 1, .giveBack none 3] := by
    unfold parse Parser.readFront
    rw [hlex]
    rfl
  have hsecond : parse "f()" = .ok [.expression (.call "f" [] 1) 1] := by
    unfold parse Parser.readFront
    rw [hother]
    rfl
  exact ⟨hfirst, hsecond, parse_append hfirst hsecond⟩

end Bhasha
