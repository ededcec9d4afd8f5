import Bhasha.Parser.Statement
import Bhasha.Proofs.Grammar.Statement
import Bhasha.Proofs.Parser.ExpressionSoundness

/-!
# What is read as a statement is grammatical

Soundness goes over from the statements inside a phrase to the phrase, and by induction on the
nesting bound to all statements.  A branching reads the newlines behind it, which the grammar
leaves to the statements around it.
-/

namespace Bhasha

namespace Parser

open Grammar

theorem sound_parenthesized : Sound parenthesized Parenthesized := by
  intro input output result h
  simp only [parenthesized, bind_eq_ok, pure_eq_ok] at h
  obtain ⟨token, middle, hopening, inner, _, hinner, closing, _, hclosing, rfl, rfl⟩ := h
  obtain ⟨openingPosition, rfl, rfl⟩ := symbol_eq_ok hopening
  obtain ⟨closingPosition, rfl, rfl⟩ := symbol_eq_ok hclosing
  obtain ⟨hending, hphrase⟩ := sound_expression hinner
  exact ⟨hending, openingPosition, closingPosition, middle.tokens, rfl, hphrase⟩

theorem sound_printing {position : Position} {input output : Lexed} {result : Stmt}
    (h : printing position.line input = .ok (result, output)) :
    output.ending = input.ending ∧
      Statement .any (⟨.keyword .sathi, position⟩ :: input.tokens) output.tokens result := by
  simp only [printing, bind_eq_ok, pure_eq_ok] at h
  obtain ⟨token, middle, hverb, value, _, hvalue, rfl, rfl⟩ := h
  obtain ⟨verb, rfl, rfl⟩ := keyword_eq_ok hverb
  obtain ⟨hending, hphrase⟩ := sound_parenthesized hvalue
  exact ⟨hending, .print hphrase⟩

theorem sound_declaration {position : Position} {input output : Lexed} {result : Stmt}
    (h : declaration position.line input = .ok (result, output)) :
    output.ending = input.ending ∧
      Statement .any (⟨.keyword .sathi, position⟩ :: input.tokens) output.tokens result := by
  simp only [declaration, bind_eq_ok, pure_eq_ok] at h
  obtain ⟨yo, _, hyo, ho, _, hho, name, _, hname, sign, _, hsign, value, _, hvalue, rfl, rfl⟩ := h
  obtain ⟨yoPosition, rfl, rfl⟩ := keyword_eq_ok hyo
  obtain ⟨hoPosition, rfl, rfl⟩ := keyword_eq_ok hho
  obtain ⟨namePosition, rfl⟩ := word_eq_ok hname
  obtain ⟨signPosition, rfl, rfl⟩ := symbol_eq_ok hsign
  obtain ⟨hending, hphrase⟩ := sound_expression hvalue
  exact ⟨hending, .declare hphrase⟩

theorem sound_rangeStep : Sound rangeStep RangeStep := by
  intro input output result h
  simp only [rangeStep, bind_eq_ok, isAt_eq_ok] at h
  obtain ⟨stepped, _, ⟨hstepped, rfl⟩, h⟩ := h
  cases stepped with
  | true =>
      simp only [if_true, bind_eq_ok, pure_eq_ok] at h
      obtain ⟨token, _, hadvance, step, _, hstep, rfl, rfl⟩ := h
      obtain ⟨position, rfl, rfl⟩ := advance_keyword (of_decide_eq_true hstepped) hadvance
      obtain ⟨hending, hphrase⟩ := sound_expression hstep
      exact ⟨hending, .some hphrase⟩
  | false =>
      obtain ⟨rfl, rfl⟩ := pure_eq_ok.mp h
      exact ⟨rfl, .none⟩

theorem endsReturn_of_current {input : Lexed} (h : endsReturn input.current.toClass = true) :
    EndsReturn input.tokens := by
  obtain ⟨tokens, ending⟩ := input
  cases tokens with
  | nil => trivial
  | cons token rest =>
      obtain ⟨kind, position⟩ := token
      change endsReturn kind.toClass = true at h
      cases kind with
      | newline => exact .inl rfl
      | endOfInput => exact .inr (.inl rfl)
      | symbol mark =>
          cases mark with
          | rightBrace => exact .inr (.inr rfl)
          | _ => exact absurd h (by decide)
      | _ => simp [TokenKind.toClass, endsReturn] at h

theorem sound_returning : Sound returning (Statement .unopened) := by
  intro input output result h
  simp only [returning, bind_eq_ok, current_eq_ok] at h
  obtain ⟨token, middle, hfirta, next, _, ⟨rfl, rfl⟩, h⟩ := h
  obtain ⟨position, rfl, rfl⟩ := keyword_eq_ok hfirta
  cases hends : endsReturn middle.current.toClass with
  | true =>
      simp only [hends, if_true, pure_eq_ok] at h
      obtain ⟨rfl, rfl⟩ := h
      exact ⟨rfl, .giveBack (endsReturn_of_current hends)⟩
  | false =>
      simp only [hends, Bool.false_eq_true, if_false, bind_eq_ok, pure_eq_ok] at h
      obtain ⟨value, _, hvalue, rfl, rfl⟩ := h
      obtain ⟨hending, hphrase⟩ := sound_expression hvalue
      exact ⟨hending, .giveBackValue hphrase⟩

theorem sound_naming : Sound naming (Statement .unopened) := by
  intro input output result h
  simp only [naming, bind_eq_ok, current_eq_ok] at h
  obtain ⟨first, _, ⟨hfirst, rfl⟩, name, middle, hname, ⟨kind, sign⟩, _, ⟨hcurrent, rfl⟩, h⟩ := h
  obtain ⟨position, rfl⟩ := word_eq_ok hname
  subst hfirst
  cases kind with
  | symbol mark =>
      cases mark with
      | assign =>
          simp only [bind_eq_ok, pure_eq_ok] at h
          obtain ⟨token, _, hadvance, value, _, hvalue, rfl, rfl⟩ := h
          obtain ⟨rfl, rfl⟩ := advance_at hadvance hcurrent (by simp)
          obtain ⟨hending, hphrase⟩ := sound_expression hvalue
          exact ⟨hending, .assign hphrase⟩
      | leftBracket =>
          simp only [bind_eq_ok, pure_eq_ok] at h
          obtain ⟨token, _, hadvance, place, _, hplace, closing, _, hclosing, equals, _, hequals,
            value, _, hvalue, rfl, rfl⟩ := h
          obtain ⟨rfl, rfl⟩ := advance_at hadvance hcurrent (by simp)
          obtain ⟨closingPosition, rfl, rfl⟩ := symbol_eq_ok hclosing
          obtain ⟨signPosition, rfl, rfl⟩ := symbol_eq_ok hequals
          obtain ⟨hplaceEnding, hplacePhrase⟩ := sound_expression hplace
          obtain ⟨hending, hphrase⟩ := sound_expression hvalue
          exact ⟨hending.trans hplaceEnding, .assignIndex hplacePhrase hphrase⟩
      | dot =>
          simp only [bind_eq_ok, pure_eq_ok] at h
          obtain ⟨token, _, hadvance, property, _, hproperty, equals, _, hequals,
            value, _, hvalue, rfl, rfl⟩ := h
          obtain ⟨rfl, rfl⟩ := advance_at hadvance hcurrent (by simp)
          obtain ⟨propertyPosition, rfl⟩ := word_eq_ok hproperty
          obtain ⟨signPosition, rfl, rfl⟩ := symbol_eq_ok hequals
          obtain ⟨hending, hphrase⟩ := sound_expression hvalue
          exact ⟨hending, .assignProperty hphrase⟩
      | leftParen =>
          simp only [bind_eq_ok, pure_eq_ok] at h
          obtain ⟨call, _, hcall, rfl, rfl⟩ := h
          obtain ⟨hending, hphrase, arguments, rfl⟩ := sound_callOf sound_expression hcall
          exact ⟨hending, .call hphrase⟩
      | _ => exact absurd h fail_ne_ok
  | _ => exact absurd h fail_ne_ok

section

variable {statement : Parser Stmt} (hstatement : Sound statement (Trailed .any))

include hstatement

theorem sound_statementsUpTo {isEnd : TokenClass → Bool} (rounds : Nat) :
    Sound (statementsUpTo isEnd statement rounds) fun input rest trees =>
      ∃ pieces : List (Piece Stmt),
        Lines input pieces rest ∧
          (∀ piece ∈ pieces, Statement .any piece.start piece.stop piece.tree) ∧
          trees = pieces.map Piece.tree := by
  induction rounds with
  | zero => exact sound_fail _ _
  | succ rounds ih =>
      intro input output result h
      simp only [statementsUpTo, bind_eq_ok, current_eq_ok] at h
      obtain ⟨_, start, hskip, token, _, ⟨rfl, rfl⟩, h⟩ := h
      obtain ⟨hending, hnewlines⟩ := sound_skipNewlines hskip
      cases hend : isEnd start.current.toClass with
      | true =>
          simp only [hend, if_true, pure_eq_ok] at h
          obtain ⟨rfl, rfl⟩ := h
          exact ⟨hending, [], .done hnewlines, by simp, rfl⟩
      | false =>
          simp only [hend, Bool.false_eq_true, if_false, bind_eq_ok, pure_eq_ok] at h
          obtain ⟨first, middle, hfirst, rest, _, hrest, rfl, rfl⟩ := h
          obtain ⟨hmiddle, behind, hphrase, htrail⟩ := hstatement hfirst
          obtain ⟨hrestEnding, pieces, hlines, hphrases, rfl⟩ := ih hrest
          refine ⟨hrestEnding.trans (hmiddle.trans hending),
            ⟨start.tokens, behind, first⟩ :: pieces, ?_, ?_, rfl⟩
          · exact .more hnewlines (hlines.of_newlines htrail)
          · simpa using And.intro hphrase hphrases

theorem sound_blockOf : Sound (blockOf statement) Block := by
  intro input output result h
  simp only [blockOf, statements, bind_eq_ok, remaining_eq_ok, pure_eq_ok] at h
  obtain ⟨_, start, hskip, token, inner, hopening, body, middle, ⟨_, _, ⟨rfl, rfl⟩, hbody⟩,
    closing, _, hclosing, rfl, rfl⟩ := h
  obtain ⟨hstart, hnewlines⟩ := sound_skipNewlines hskip
  obtain ⟨opening, rfl, rfl⟩ := symbol_eq_ok hopening
  obtain ⟨closingPosition, rfl, rfl⟩ := symbol_eq_ok hclosing
  obtain ⟨hending, pieces, hlines, hphrases, rfl⟩ := sound_statementsUpTo hstatement _ hbody
  exact ⟨hending.trans hstart, pieces, ⟨opening, closingPosition, inner.tokens, hnewlines, hlines⟩,
    hphrases, rfl⟩

theorem sound_looping : Sound (looping statement) (Statement .unopened) := by
  intro input output result h
  simp only [looping, bind_eq_ok, pure_eq_ok] at h
  obtain ⟨token, middle, hjaba, condition, behind, hcondition, body, _, hbody, rfl, rfl⟩ := h
  obtain ⟨position, rfl, rfl⟩ := keyword_eq_ok hjaba
  obtain ⟨hbehind, hparenthesized⟩ := sound_parenthesized hcondition
  obtain ⟨hending, pieces, hbraced, hphrases, rfl⟩ := sound_blockOf hstatement hbody
  exact ⟨hending.trans hbehind, .loop hparenthesized hbraced hphrases⟩

theorem sound_ranging : Sound (ranging statement) (Statement .unopened) := by
  intro input output result h
  simp only [ranging, bind_eq_ok, pure_eq_ok] at h
  obtain ⟨token, _, hprawahit, opening, _, hopening, counter, _, hcounter, dekhi, _, hdekhi,
    first, _, hfirst, samma, _, hsamma, bound, _, hbound, step, _, hstep, closing, _, hclosing,
    body, _, hbody, rfl, rfl⟩ := h
  obtain ⟨position, rfl, rfl⟩ := keyword_eq_ok hprawahit
  obtain ⟨openingPosition, rfl, rfl⟩ := symbol_eq_ok hopening
  obtain ⟨counterPosition, rfl⟩ := word_eq_ok hcounter
  obtain ⟨dekhiPosition, rfl, rfl⟩ := keyword_eq_ok hdekhi
  obtain ⟨sammaPosition, rfl, rfl⟩ := keyword_eq_ok hsamma
  obtain ⟨closingPosition, rfl, rfl⟩ := symbol_eq_ok hclosing
  obtain ⟨hfirstEnding, hfirstPhrase⟩ := sound_expression hfirst
  obtain ⟨hboundEnding, hboundPhrase⟩ := sound_expression hbound
  obtain ⟨hstepEnding, hstepPhrase⟩ := sound_rangeStep hstep
  obtain ⟨hending, pieces, hbraced, hphrases, rfl⟩ := sound_blockOf hstatement hbody
  exact ⟨hending.trans (hstepEnding.trans (hboundEnding.trans hfirstEnding)),
    .range hfirstPhrase hboundPhrase hstepPhrase hbraced hphrases⟩

theorem sound_definition : Sound (definition statement) (Statement .unopened) := by
  intro input output result h
  simp only [definition, bind_eq_ok, pure_eq_ok] at h
  obtain ⟨token, _, hkaam, name, _, hname, opening, middle, hopening, parameters, behind,
    hparameters, body, _, hbody, rfl, rfl⟩ := h
  obtain ⟨position, rfl, rfl⟩ := keyword_eq_ok hkaam
  obtain ⟨namePosition, rfl⟩ := word_eq_ok hname
  obtain ⟨openingPosition, rfl, rfl⟩ := symbol_eq_ok hopening
  obtain ⟨hbehind, hwords⟩ := sound_commaList sound_word hparameters
  obtain ⟨hending, pieces, hbraced, hphrases, rfl⟩ := sound_blockOf hstatement hbody
  exact ⟨hending.trans hbehind, .define hwords hbraced hphrases⟩

theorem sound_attempting : Sound (attempting statement) (Statement .unopened) := by
  intro input output result h
  simp only [attempting, bind_eq_ok, pure_eq_ok] at h
  obtain ⟨token, _, hpryas, body, behind, hbody, _, clause, hskip, samatan, _, hsamatan,
    opening, _, hopening, errorName, _, herrorName, closing, _, hclosing, handler, _, hhandler,
    rfl, rfl⟩ := h
  obtain ⟨position, rfl, rfl⟩ := keyword_eq_ok hpryas
  obtain ⟨hbehind, bodyPieces, hbodyBraced, hbodyPhrases, rfl⟩ := sound_blockOf hstatement hbody
  obtain ⟨hclause, hnewlines⟩ := sound_skipNewlines hskip
  obtain ⟨samatanPosition, rfl, rfl⟩ := keyword_eq_ok hsamatan
  obtain ⟨openingPosition, rfl, rfl⟩ := symbol_eq_ok hopening
  obtain ⟨namePosition, rfl⟩ := word_eq_ok herrorName
  obtain ⟨closingPosition, rfl, rfl⟩ := symbol_eq_ok hclosing
  obtain ⟨hending, pieces, hbraced, hphrases, rfl⟩ := sound_blockOf hstatement hhandler
  exact ⟨hending.trans (hclause.trans hbehind),
    .attempt hbodyBraced hbodyPhrases hnewlines hbraced hphrases⟩

theorem sound_branching : Sound (branching statement) (Trailed .unopened) := by
  intro input output result h
  simp only [branching, bind_eq_ok, isAt_eq_ok] at h
  obtain ⟨token, _, hyadi, condition, middle, hcondition, yes, behind, hyes, _, after, hskip,
    other, _, ⟨hother, rfl⟩, h⟩ := h
  obtain ⟨position, rfl, rfl⟩ := keyword_eq_ok hyadi
  obtain ⟨hmiddle, hparenthesized⟩ := sound_parenthesized hcondition
  obtain ⟨hbehind, yesPieces, hyesBraced, hyesPhrases, rfl⟩ := sound_blockOf hstatement hyes
  obtain ⟨hafter, hnewlines⟩ := sound_skipNewlines hskip
  have hending : after.ending = _ := hafter.trans (hbehind.trans hmiddle)
  cases other with
  | false =>
      obtain ⟨rfl, rfl⟩ := pure_eq_ok.mp h
      exact ⟨hending, behind.tokens, .branch hparenthesized hyesBraced hyesPhrases, hnewlines⟩
  | true =>
      simp only [if_true, bind_eq_ok, pure_eq_ok, otherwise, isAt_eq_ok] at h
      obtain ⟨anya, alternative, hadvance, no, _, ⟨again, _, ⟨hagain, rfl⟩, hno⟩, rfl, rfl⟩ := h
      obtain ⟨otherPosition, rfl, rfl⟩ := advance_keyword (of_decide_eq_true hother) hadvance
      cases again with
      | false =>
          obtain ⟨hnoEnding, noPieces, hnoBraced, hnoPhrases, rfl⟩ := sound_blockOf hstatement hno
          exact ⟨hnoEnding.trans hending, _,
            .branchElse hparenthesized hyesBraced hyesPhrases hnewlines hnoBraced hnoPhrases,
            .none _⟩
      | true =>
          simp only [if_true, bind_eq_ok, pure_eq_ok] at hno
          obtain ⟨inner, _, hinner, rfl, rfl⟩ := hno
          obtain ⟨hinnerEnding, rest, hphrase, htrail⟩ := hstatement hinner
          have hclass : alternative.current.toClass = .keyword .yadi := of_decide_eq_true hagain
          obtain ⟨againPosition, hcurrent⟩ := eq_of_toClass_keyword hclass
          have halternative := eq_cons_of_current hcurrent (by simp)
          rw [halternative] at hphrase hnewlines
          exact ⟨hinnerEnding.trans hending, rest,
            .branchElseIf hparenthesized hyesBraced hyesPhrases hnewlines hphrase.unopened_of_yadi,
            htrail⟩

theorem sound_unopened : Sound (unopened statement) (Trailed .unopened) := by
  intro input output result h
  have hexact : ∀ {parser : Parser Stmt}, Sound parser (Statement .unopened) →
      parser input = .ok (result, output) →
      output.ending = input.ending ∧ Trailed .unopened input.tokens output.tokens result := by
    intro parser hparser hread
    obtain ⟨hending, hphrase⟩ := hparser hread
    exact ⟨hending, output.tokens, hphrase, .none _⟩
  simp only [unopened, bind_eq_ok, current_eq_ok] at h
  obtain ⟨⟨kind, position⟩, _, ⟨hcurrent, rfl⟩, h⟩ := h
  cases kind with
  | keyword reserved =>
      cases reserved with
      | yadi => exact sound_branching hstatement h
      | jaba => exact hexact (sound_looping hstatement) h
      | prawahit => exact hexact (sound_ranging hstatement) h
      | kaam => exact hexact (sound_definition hstatement) h
      | firta => exact hexact sound_returning h
      | pryas => exact hexact (sound_attempting hstatement) h
      | thodau =>
          simp only [bind_eq_ok, pure_eq_ok] at h
          obtain ⟨token, _, hadvance, rfl, rfl⟩ := h
          obtain ⟨rfl, rfl⟩ := advance_at hadvance hcurrent (by simp)
          exact ⟨rfl, _, .leave, .none _⟩
      | jari =>
          simp only [bind_eq_ok, pure_eq_ok] at h
          obtain ⟨token, _, hadvance, rfl, rfl⟩ := h
          obtain ⟨rfl, rfl⟩ := advance_at hadvance hcurrent (by simp)
          exact ⟨rfl, _, .proceed, .none _⟩
      | _ => exact absurd h fail_ne_ok
  | word name => exact hexact sound_naming h
  | _ => exact absurd h fail_ne_ok

theorem sound_opened {position : Position} {input output : Lexed} {result : Stmt}
    (h : opened statement position.line input = .ok (result, output)) :
    output.ending = input.ending ∧
      Trailed .any (⟨.keyword .sathi, position⟩ :: input.tokens) output.tokens result := by
  simp only [opened, bind_eq_ok, current_eq_ok] at h
  obtain ⟨token, _, ⟨rfl, rfl⟩, h⟩ := h
  split at h
  · obtain ⟨hending, hphrase⟩ := sound_printing h
    exact ⟨hending, output.tokens, hphrase, .none _⟩
  · split at h
    · obtain ⟨hending, hphrase⟩ := sound_declaration h
      exact ⟨hending, output.tokens, hphrase, .none _⟩
    · split at h
      · obtain ⟨hending, behind, hphrase, htrail⟩ := sound_unopened hstatement h
        exact ⟨hending, behind, .opened hphrase, htrail⟩
      · exact absurd h fail_ne_ok

theorem sound_statementOf : Sound (statementOf statement) (Trailed .any) := by
  intro input output result h
  simp only [statementOf, bind_eq_ok, current_eq_ok] at h
  obtain ⟨token, _, ⟨rfl, rfl⟩, h⟩ := h
  by_cases hclass : input.current.toClass = .keyword .sathi
  · simp only [hclass, if_true, bind_eq_ok] at h
    obtain ⟨token, _, hadvance, h⟩ := h
    obtain ⟨position, rfl, rfl⟩ := advance_keyword hclass hadvance
    exact sound_opened hstatement h
  · simp only [hclass, if_false] at h
    obtain ⟨hending, behind, hphrase, htrail⟩ := sound_unopened hstatement h
    exact ⟨hending, behind, .bare hphrase, htrail⟩

end

theorem sound_statementWithin (depth : Nat) :
    Sound (statementWithin depth) (Trailed .any) := by
  induction depth with
  | zero => exact sound_fail _ _
  | succ depth ih => exact sound_statementOf ih

theorem sound_statement : Sound statement (Trailed .any) := by
  intro input output result h
  simp only [statement, bind_eq_ok, remaining_eq_ok] at h
  obtain ⟨_, _, ⟨rfl, rfl⟩, h⟩ := h
  exact sound_statementWithin _ h

theorem eq_ok_of_readFront {α : Type} {parser : Parser α} {source : String} {result : α}
    (h : readFront parser source = .ok result) :
    ∃ output, parser (Lexer.lex source) = .ok (result, output) := by
  unfold readFront at h
  cases hsettle : (Lexer.lex source).settle with
  | error error =>
      rw [hsettle] at h
      cases h
  | ok input =>
      obtain rfl := settle_eq_ok hsettle
      rw [hsettle] at h
      change (parser (Lexer.lex source) >>= fun p => Except.ok p.1) = _ at h
      cases hread : parser (Lexer.lex source) with
      | error error =>
          rw [hread] at h
          cases h
      | ok p =>
          rw [hread] at h
          cases h
          exact ⟨p.2, rfl⟩

end Parser

/-- A program that is parsed consists of the statements on the lines of its source text. -/
theorem Program.exists_lines_of_parse {source : String} {program : Program}
    (h : parse source = .ok program) :
    ∃ pieces rest,
      Grammar.Lines (Lexer.lex source).tokens pieces rest ∧
        (∀ piece ∈ pieces, Grammar.Statement .any piece.start piece.stop piece.tree) ∧
        program = pieces.map Grammar.Piece.tree := by
  obtain ⟨output, hread⟩ := Parser.eq_ok_of_readFront h
  simp only [Parser.program, Parser.statements, Parser.bind_eq_ok,
    Parser.remaining_eq_ok] at hread
  obtain ⟨count, _, ⟨rfl, rfl⟩, hread⟩ := hread
  obtain ⟨-, pieces, hlines, hphrases, rfl⟩ :=
    Parser.sound_statementsUpTo Parser.sound_statement _ hread
  exact ⟨pieces, output.tokens, hlines, hphrases, rfl⟩

end Bhasha
