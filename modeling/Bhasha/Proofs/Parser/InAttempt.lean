import Bhasha.Proofs.Grammar.Carried
import Bhasha.Proofs.Grammar.PrintedExpression
import Bhasha.Proofs.Parser.Acceptance

/-!
# A source text in an attempt

A source text that is parsed may be put into the braces of an attempt.  Its program becomes the
body of the attempt, one line further down.  The last line of the source text ends in front of the
closing brace, even if it is a comment or a return.
-/

namespace Bhasha

/-- The source text in an attempt whose handler prints the fault. -/
def inAttempt (source : String) : String :=
  "pryas \x7b\n" ++ source ++ "\n\x7d samatan (e) \x7b sathi bhana(e) \x7d"

/-- The program, one line further down, in an attempt whose handler is on the line. -/
def Program.inAttempt (program : Program) (line : Nat) : Program :=
  [.attempt (program.relabel (· + 1)) "e" [.print (.var "e" line) line] 1]

namespace Lexer

theorem lexFrom_opening :
    lexFrom .start "pryas \x7b".toList =
      ⟨[⟨.keyword .pryas, ⟨1, 1⟩⟩, ⟨.symbol .leftBrace, ⟨1, 7⟩⟩], .ok ⟨1, 8⟩⟩ :=
  Lexed.eq_of_tokens (by decide +kernel) (by decide +kernel)

/-- The tokens of the last line. -/
def handlerTokens (line : Nat) : List Token :=
  [⟨.symbol .rightBrace, ⟨line, 1⟩⟩, ⟨.keyword .samatan, ⟨line, 3⟩⟩,
    ⟨.symbol .leftParen, ⟨line, 11⟩⟩, ⟨.word "e", ⟨line, 12⟩⟩, ⟨.symbol .rightParen, ⟨line, 13⟩⟩,
    ⟨.symbol .leftBrace, ⟨line, 15⟩⟩, ⟨.keyword .sathi, ⟨line, 17⟩⟩,
    ⟨.keyword .bhana, ⟨line, 23⟩⟩, ⟨.symbol .leftParen, ⟨line, 28⟩⟩, ⟨.word "e", ⟨line, 29⟩⟩,
    ⟨.symbol .rightParen, ⟨line, 30⟩⟩, ⟨.symbol .rightBrace, ⟨line, 32⟩⟩]

theorem lexFrom_handler (line : Nat) :
    lexFrom ⟨line, 1⟩ "\x7d samatan (e) \x7b sathi bhana(e) \x7d".toList =
      ⟨handlerTokens line, .ok ⟨line, 33⟩⟩ := by
  have hfirst : lexFrom ⟨0, 1⟩ "\x7d samatan (e) \x7b sathi bhana(e) \x7d".toList =
      ⟨handlerTokens 0, .ok ⟨0, 33⟩⟩ :=
    Lexed.eq_of_tokens (by decide +kernel) (by decide +kernel)
  simpa [handlerTokens, Token.relabel, Position.relabel] using lexFrom_relabel line hfirst

theorem lex_inAttempt {source : String} {tokens : List Token} {last : Position}
    (h : lex source = ⟨tokens, .ok last⟩) :
    lex (inAttempt source) =
      ⟨⟨.keyword .pryas, ⟨1, 1⟩⟩ :: ⟨.symbol .leftBrace, ⟨1, 7⟩⟩ :: ⟨.newline, ⟨1, 8⟩⟩ ::
          Grammar.carried (· + 1)
            (⟨.newline, last.relabel (· + 1)⟩ :: handlerTokens (last.line + 2)) tokens,
        .ok ⟨last.line + 2, 33⟩⟩ := by
  -- The lines are joined from the last one on, since a join needs the tokens of what follows.
  have hbody := lexFrom_relabel 1 h
  have hbehind := lexFrom_join hbody (lexFrom_handler (last.line + 2))
  have hwhole := lexFrom_join lexFrom_opening hbehind
  unfold lex inAttempt
  have htext : ("pryas \x7b\n" ++ source ++ "\n\x7d samatan (e) \x7b sathi bhana(e) \x7d").toList =
      "pryas \x7b".toList ++ '\n' :: (source.toList ++
        '\n' :: "\x7d samatan (e) \x7b sathi bhana(e) \x7d".toList) := by
    simp
  rw [htext, hwhole]
  rfl

end Lexer

namespace Grammar

theorem block_print_name {opening sathi verb left word right closing : Position} {name : String}
    {rest : List Token} :
    Block
      (⟨.symbol .leftBrace, opening⟩ :: ⟨.keyword .sathi, sathi⟩ :: ⟨.keyword .bhana, verb⟩ ::
        ⟨.symbol .leftParen, left⟩ :: ⟨.word name, word⟩ :: ⟨.symbol .rightParen, right⟩ ::
        ⟨.symbol .rightBrace, closing⟩ :: rest)
      rest [.print (.var name word.line) sathi.line] := by
  have hname {rest : List Token} : Expression .disjunction (⟨.word name, word⟩ :: rest) rest
      (.var name word.line) :=
    Expression.loosen .var (Nat.zero_le _)
  refine ⟨[⟨_, _, _⟩], ⟨opening, closing, _, .none _, .more (.none _) (.done (.none _))⟩, ?_, rfl⟩
  exact List.forall_mem_singleton.mpr (.print ⟨left, right, _, rfl, hname⟩)

theorem program_of_statement {tokens : List Token} {tree : Stmt}
    (h : Statement .any tokens [] tree) : Program tokens [tree] :=
  ⟨[⟨tokens, [], tree⟩], .more (.none _) (.done (.none _)), List.forall_mem_singleton.mpr h, rfl⟩

/-- A program may be carried into the braces of an attempt. -/
theorem program_of_body {label : Nat → Nat} {tokens behind clause : List Token}
    {program : Bhasha.Program} {handler : List Stmt} {errorName : String}
    {position opening first last closing samatan left word right : Position}
    (h : Program tokens program)
    (hbehind : Newlines behind
      (⟨.keyword .samatan, samatan⟩ :: ⟨.symbol .leftParen, left⟩ :: ⟨.word errorName, word⟩ ::
        ⟨.symbol .rightParen, right⟩ :: clause))
    (hclause : Block clause [] handler) :
    Program
      (⟨.keyword .pryas, position⟩ :: ⟨.symbol .leftBrace, opening⟩ :: ⟨.newline, first⟩ ::
        carried label (⟨.newline, last⟩ :: ⟨.symbol .rightBrace, closing⟩ :: behind) tokens)
      [.attempt (program.relabel label) errorName handler position.line] := by
  obtain ⟨clausePieces, hbracedClause, hhandler, rfl⟩ := hclause
  let tail : List Token := ⟨.newline, last⟩ :: ⟨.symbol .rightBrace, closing⟩ :: behind
  have hends : EndsReturn tail := .inl rfl
  obtain ⟨body, hlines, hbody, htrees⟩ := h.carried hends
  have hinner : Lines (carried label tail tokens) body
      (⟨.symbol .rightBrace, closing⟩ :: behind) :=
    hlines.then_newlines (.more (.none _))
  have hbraced : Braced
      (⟨.symbol .leftBrace, opening⟩ :: ⟨.newline, first⟩ :: carried label tail tokens)
      body behind :=
    ⟨opening, closing, _, .none _, hinner.of_newlines (.more (.none _))⟩
  rw [htrees]
  exact program_of_statement (.bare (.attempt hbraced hbody hbehind hbracedClause hhandler))

end Grammar

theorem Program.parse_inAttempt {source : String} {program : Program}
    (h : parse source = .ok program) :
    ∃ line, parse (Bhasha.inAttempt source) = .ok (program.inAttempt line) := by
  obtain ⟨tokens, last, hlex, hphrase⟩ := Program.exists_tokens_of_parse h
  exact ⟨last.line + 2, Program.parse_of_derived (Lexer.lex_inAttempt hlex)
    (Grammar.program_of_body hphrase (.none _) Grammar.block_print_name)⟩

end Bhasha
