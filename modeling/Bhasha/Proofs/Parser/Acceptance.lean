import Bhasha.Proofs.Parser.Composed
import Bhasha.Proofs.Parser.StatementCompleteness
import Bhasha.Proofs.Parser.StatementSoundness

/-!
# The programs that the parser accepts

On a source text that is made of tokens the parser accepts exactly the programs of the grammar.
So the grammar derives at most one program from a token list, although it does not say how far
its phrases reach.
-/

namespace Bhasha

namespace Lexer

theorem symbolStep_ne_endOfInput {first : Char} {rest : List Char} {kind : TokenKind}
    {extra : Nat} (h : symbolStep first rest = .token kind extra) : kind ≠ .endOfInput := by
  rintro rfl
  unfold symbolStep at h
  split at h <;> cases h

theorem step_ne_endOfInput {first : Char} {rest : List Char} {kind : TokenKind} {extra : Nat}
    (h : step first rest = .token kind extra) : kind ≠ .endOfInput := by
  unfold step at h
  split at h
  · cases h
  split at h
  · cases h
  split at h
  · cases h
    simp
  split at h
  · unfold numberStep at h
    simp only at h
    split at h <;> cases h <;> simp
  split at h
  · unfold wordStep at h
    simp only at h
    split at h <;> cases h <;> simp
  split at h
  · unfold textStep at h
    split at h <;> cases h
    simp
  · exact symbolStep_ne_endOfInput h

/-- The end of the input is not a token. -/
theorem kind_ne_endOfInput_of_mem_lexFrom (position : Position) (text : List Char) :
    ∀ token ∈ (lexFrom position text).tokens, token.kind ≠ .endOfInput := by
  fun_induction lexFrom position text with
  | case1 => simp
  | case2 position first rest extra hstep ih => exact ih
  | case3 position first rest kind extra hstep later ih =>
      intro token htoken
      rcases List.mem_cons.mp htoken with rfl | htoken
      · exact step_ne_endOfInput hstep
      · exact ih token htoken
  | case4 => simp
  | case5 => simp

end Lexer

namespace Parser

open Grammar

theorem eq_nil_of_endsProgram {input : Lexed} (hends : endsProgram input.current.toClass = true)
    (htokens : ∀ token ∈ input.tokens, token.kind ≠ .endOfInput) : input.tokens = [] := by
  obtain ⟨tokens, ending⟩ := input
  cases tokens with
  | nil => rfl
  | cons token rest =>
      have hkind := htokens token (by simp)
      change endsProgram token.kind.toClass = true at hends
      cases hfront : token.kind <;> simp_all [TokenKind.toClass, endsProgram]

/-- Statements are read up to a token that ends them. -/
theorem isEnd_of_statementsUpTo {isEnd : TokenClass → Bool} {statement : Parser Stmt}
    {rounds : Nat} {input output : Lexed} {trees : List Stmt}
    (h : statementsUpTo isEnd statement rounds input = .ok (trees, output)) :
    isEnd output.current.toClass = true := by
  induction rounds generalizing input trees with
  | zero => exact absurd h fail_ne_ok
  | succ rounds ih =>
      simp only [statementsUpTo, bind_eq_ok, current_eq_ok] at h
      obtain ⟨_, start, _, token, _, ⟨rfl, rfl⟩, h⟩ := h
      cases hend : isEnd start.current.toClass with
      | true =>
          simp only [hend, if_true, pure_eq_ok] at h
          rw [← h.2]
          exact hend
      | false =>
          simp only [hend, Bool.false_eq_true, if_false, bind_eq_ok, pure_eq_ok] at h
          obtain ⟨first, middle, _, rest, _, hrest, _, rfl⟩ := h
          exact ih hrest

theorem program_eq_ok {tokens : List Token} {position : Position} {output : Lexed}
    {tree : Bhasha.Program} (h : program ⟨tokens, .ok position⟩ = .ok (tree, output))
    (htokens : ∀ token ∈ tokens, token.kind ≠ .endOfInput) : Grammar.Program tokens tree := by
  simp only [program, statements, bind_eq_ok, remaining_eq_ok] at h
  obtain ⟨count, _, ⟨rfl, rfl⟩, h⟩ := h
  obtain ⟨-, pieces, hlines, hphrases, rfl⟩ := sound_statementsUpTo sound_statement _ h
  have hsuffix := hlines.suffix fun piece hpiece => (hphrases piece hpiece).consumes
  have hrest : output.tokens = [] :=
    eq_nil_of_endsProgram (isEnd_of_statementsUpTo h) fun token htoken =>
      htokens token (hsuffix.mem htoken)
  rw [hrest] at hlines
  exact ⟨pieces, hlines, hphrases, rfl⟩

theorem reads_program {tokens : List Token} {tree : Bhasha.Program}
    (h : Grammar.Program tokens tree) : Reads program tokens [] tree := by
  obtain ⟨pieces, hlines, hphrases, rfl⟩ := h
  refine (reads_remaining tokens).bind ?_
  exact reads_statementsUpTo (fun _ => endsProgram_of_starts) rfl (.inl rfl) hlines
    (fun piece hpiece => readsStatement_of_statement (hphrases piece hpiece)) tokens _
    (.none tokens) (Nat.lt_succ_self _)

theorem readFront_eq_ok {α : Type} {parser : Parser α} {source : String} {tokens : List Token}
    {position : Position} (hlex : Lexer.lex source = ⟨tokens, .ok position⟩) (tree : α) :
    readFront parser source = .ok tree ↔
      ∃ output, parser ⟨tokens, .ok position⟩ = .ok (tree, output) := by
  have hsettle : Lexed.settle ⟨tokens, .ok position⟩ = .ok ⟨tokens, .ok position⟩ := by
    cases tokens <;> rfl
  unfold readFront
  rw [hlex, hsettle]
  change (parser ⟨tokens, .ok position⟩ >>= fun p => Except.ok p.1) = _ ↔ _
  cases parser ⟨tokens, .ok position⟩ with
  | error error => simp [bind, Except.bind]
  | ok p =>
      obtain ⟨result, output⟩ := p
      simp [bind, Except.bind]

theorem settle_of_readFront {α : Type} {parser : Parser α} {source : String} {result : α}
    (h : readFront parser source = .ok result) :
    (Lexer.lex source).settle = .ok (Lexer.lex source) := by
  unfold readFront at h
  cases hsettle : (Lexer.lex source).settle with
  | error error =>
      rw [hsettle] at h
      cases h
  | ok input => rw [settle_eq_ok hsettle]

theorem settled_of_settle {input output : Lexed} (h : input.settle = .ok output) :
    output.settle = .ok output := by
  obtain rfl := settle_eq_ok h
  exact h

theorem settled_of_taken {α : Type} {input output : Lexed} {result value : α}
    (h : (do
      let next ← input.settle
      Except.ok (result, next) : Except ParseError (α × Lexed)) = .ok (value, output)) :
    output.settle = .ok output := by
  cases hsettle : input.settle with
  | error error => simp [hsettle, bind, Except.bind] at h
  | ok next =>
      simp only [hsettle, bind, Except.bind, Except.ok.injEq, Prod.mk.injEq] at h
      rw [← h.2]
      exact settled_of_settle hsettle

/-- What a parser leaves over of input without a lexical error at its front has none there. -/
theorem Composed.settled {α : Type} {parser : Parser α} (h : Composed parser) :
    ∀ {input output : Lexed} {value : α}, input.settle = .ok input →
      parser input = .ok (value, output) → output.settle = .ok output := by
  induction h with
  | pure value =>
      intro input output result hinput hread
      rwa [← (pure_eq_ok.mp hread).2]
  | bind _ _ ih ihnext =>
      intro input output result hinput hread
      obtain ⟨value, middle, hfirst, hnext⟩ := bind_eq_ok.mp hread
      exact ihnext value (ih hinput hfirst) hnext
  | current =>
      intro input output token hinput hread
      rwa [← (current_eq_ok.mp hread).2]
  | remaining =>
      intro input output count hinput hread
      rwa [← (remaining_eq_ok.mp hread).2]
  | fail cause => exact fun _ hread => absurd hread fail_ne_ok
  | advance => exact fun _ hread => settled_of_taken hread
  | skipNewlines => exact fun _ hread => settled_of_taken hread

/-- A program is read up to the end of a source text that is made of tokens. -/
theorem ending_of_program {input output : Lexed} {tree : Bhasha.Program}
    (h : program input = .ok (tree, output)) (hinput : input.settle = .ok input)
    (htokens : ∀ token ∈ input.tokens, token.kind ≠ .endOfInput) :
    ∃ position, input.ending = .ok position := by
  have hsettled := composed_program.settled hinput h
  simp only [program, statements, bind_eq_ok, remaining_eq_ok] at h
  obtain ⟨count, _, ⟨rfl, rfl⟩, h⟩ := h
  obtain ⟨hending, pieces, hlines, hphrases, -⟩ := sound_statementsUpTo sound_statement _ h
  have hsuffix := hlines.suffix fun piece hpiece => (hphrases piece hpiece).consumes
  have hrest : output.tokens = [] :=
    eq_nil_of_endsProgram (isEnd_of_statementsUpTo h) fun token htoken =>
      htokens token (hsuffix.mem htoken)
  rw [← hending]
  cases hlast : output.ending with
  | ok position => exact ⟨position, rfl⟩
  | error error => simp [Lexed.settle, hrest, hlast] at hsettled

end Parser

/-- A source text that is parsed is made of tokens, which derive its program. -/
theorem Program.exists_tokens_of_parse {source : String} {program : Program}
    (h : Program.parse source = .ok program) :
    ∃ tokens position, Lexer.lex source = ⟨tokens, .ok position⟩ ∧
      Grammar.Program tokens program := by
  have htokens := Lexer.kind_ne_endOfInput_of_mem_lexFrom .start source.toList
  obtain ⟨output, hread⟩ := Parser.eq_ok_of_readFront h
  obtain ⟨position, hending⟩ :=
    Parser.ending_of_program hread (Parser.settle_of_readFront h) htokens
  have hlex : Lexer.lex source = ⟨(Lexer.lex source).tokens, .ok position⟩ := by
    rw [← hending]
  rw [hlex] at hread
  exact ⟨_, position, hlex, Parser.program_eq_ok hread htokens⟩

/-- A source text whose tokens derive a program is parsed with it. -/
theorem Program.parse_of_derived {source : String} {tokens : List Token} {position : Position}
    {program : Program} (hlex : Lexer.lex source = ⟨tokens, .ok position⟩)
    (h : Grammar.Program tokens program) : Program.parse source = .ok program :=
  (Parser.readFront_eq_ok hlex program).mpr ⟨_, Parser.reads_program h position⟩

/-- Parsing is the grammar: a source text made of tokens is accepted with a program exactly if
its tokens derive the program. -/
theorem Program.parse_eq_ok_iff
    {source : String} {tokens : List Token} {position : Position} {program : Program}
    (hlex : Lexer.lex source = ⟨tokens, .ok position⟩) :
    Program.parse source = .ok program ↔ Grammar.Program tokens program := by
  have htokens : ∀ token ∈ tokens, token.kind ≠ .endOfInput := by
    have hlexed := Lexer.kind_ne_endOfInput_of_mem_lexFrom .start source.toList
    rw [show Lexer.lexFrom .start source.toList = _ from hlex] at hlexed
    exact hlexed
  unfold Program.parse
  rw [Parser.readFront_eq_ok hlex]
  constructor
  · rintro ⟨output, h⟩
    exact Parser.program_eq_ok h htokens
  · intro h
    exact ⟨_, Parser.reads_program h position⟩

theorem Program.parse_two_lines :
    Lexer.lex "a = b\njari" =
      ⟨[⟨.word "a", ⟨1, 1⟩⟩, ⟨.symbol .assign, ⟨1, 3⟩⟩, ⟨.word "b", ⟨1, 5⟩⟩, ⟨.newline, ⟨1, 6⟩⟩,
        ⟨.keyword .jari, ⟨2, 1⟩⟩], .ok ⟨2, 5⟩⟩ ∧
    (Program.parse "a = b\njari" = .ok [.assign "a" (.var "b" 1) 1, .proceed 2] ↔
      Grammar.Program
        [⟨.word "a", ⟨1, 1⟩⟩, ⟨.symbol .assign, ⟨1, 3⟩⟩, ⟨.word "b", ⟨1, 5⟩⟩, ⟨.newline, ⟨1, 6⟩⟩,
          ⟨.keyword .jari, ⟨2, 1⟩⟩]
        [.assign "a" (.var "b" 1) 1, .proceed 2]) := by
  have hlex : Lexer.lex "a = b\njari" =
      ⟨[⟨.word "a", ⟨1, 1⟩⟩, ⟨.symbol .assign, ⟨1, 3⟩⟩, ⟨.word "b", ⟨1, 5⟩⟩, ⟨.newline, ⟨1, 6⟩⟩,
        ⟨.keyword .jari, ⟨2, 1⟩⟩], .ok ⟨2, 5⟩⟩ := by
    have hblank (rest : List Char) : Lexer.step ' ' rest = .skip 0 := rfl
    have hnewline (rest : List Char) : Lexer.step '\n' rest = .token .newline 0 := rfl
    have ha : Lexer.step 'a' " = b\njari".toList = .token (.word "a") 0 := rfl
    have hassign : Lexer.step '=' " b\njari".toList = .token (.symbol .assign) 0 := rfl
    have hb : Lexer.step 'b' "\njari".toList = .token (.word "b") 0 := rfl
    have hjari : Lexer.step 'j' "ari".toList = .token (.keyword .jari) 3 := rfl
    simp at ha hassign hb hjari
    simp [Lexer.lex, Lexer.lexFrom, hblank, hnewline, ha, hassign, hb, hjari]
    decide
  exact ⟨hlex, Program.parse_eq_ok_iff hlex⟩

end Bhasha
