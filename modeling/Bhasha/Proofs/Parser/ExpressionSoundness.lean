import Bhasha.Parser.Expression
import Bhasha.Proofs.Grammar.Expression
import Bhasha.Proofs.Parser.Level
import Bhasha.Proofs.Parser.Step

/-!
# What is read as an expression is grammatical

Every parser is given in terms of the parsers for the phrases inside its own, so it is sound as
soon as those are.  A nesting bound of zero reads nothing, and induction on the bound makes the
parser of expressions sound.
-/

namespace Bhasha

namespace Parser

open Grammar

variable {α : Type}

/-- Whatever a parser reads is a phrase. -/
def Sound (parser : Parser α) (phrase : List Token → List Token → α → Prop) : Prop :=
  ∀ ⦃input output : Lexed⦄ ⦃result : α⦄, parser input = .ok (result, output) →
    output.ending = input.ending ∧ phrase input.tokens output.tokens result

theorem sound_fail (cause : TokenClass → SyntaxCause)
    (phrase : List Token → List Token → α → Prop) : Sound (fail cause) phrase :=
  fun _ _ _ h => absurd h fail_ne_ok

theorem sound_word : Sound word Word := by
  intro input output name h
  obtain ⟨position, rfl⟩ := word_eq_ok h
  exact ⟨rfl, position, rfl⟩

theorem sound_skipNewlines : Sound skipNewlines fun input rest _ => Newlines input rest := by
  intro input output _ h
  obtain rfl := skipNewlines_eq_ok h
  exact ⟨rfl, newlines_dropWhile input.tokens⟩

theorem sound_itemsUpTo {closing : Symbol} {item : Parser α}
    {phrase : List Token → List Token → α → Prop} (hitem : Sound item phrase) (rounds : Nat) :
    Sound (itemsUpTo closing item rounds) (CommaList closing phrase) := by
  induction rounds with
  | zero => exact sound_fail _ _
  | succ rounds ih =>
      intro input output values h
      simp only [itemsUpTo, bind_eq_ok, isAt_eq_ok] at h
      obtain ⟨_, start, hskip, closed, _, ⟨hclosed, rfl⟩, h⟩ := h
      obtain ⟨hending, hnewlines⟩ := sound_skipNewlines hskip
      cases closed with
      | true =>
          simp only [if_true, bind_eq_ok, pure_eq_ok] at h
          obtain ⟨token, _, hadvance, rfl, rfl⟩ := h
          obtain ⟨position, rfl, rfl⟩ := advance_symbol (of_decide_eq_true hclosed) hadvance
          exact ⟨hending, [], .close hnewlines, by simp, rfl⟩
      | false =>
          simp only [Bool.false_eq_true, if_false, bind_eq_ok, isAt_eq_ok] at h
          obtain ⟨first, stop, hfirst, _, behind, hbehind, comma, _, ⟨hcomma, rfl⟩, h⟩ := h
          obtain ⟨hstop, hphrase⟩ := hitem hfirst
          obtain ⟨hbehindEnding, hbehindNewlines⟩ := sound_skipNewlines hbehind
          cases comma with
          | true =>
              simp only [if_true, bind_eq_ok, pure_eq_ok] at h
              obtain ⟨token, middle, hadvance, values, _, hrest, rfl, rfl⟩ := h
              obtain ⟨position, rfl, rfl⟩ := advance_symbol (of_decide_eq_true hcomma) hadvance
              obtain ⟨hrestEnding, pieces, hpieces, hphrases, rfl⟩ := ih hrest
              refine ⟨hrestEnding.trans (hbehindEnding.trans (hstop.trans hending)),
                ⟨start.tokens, stop.tokens, first⟩ :: pieces, ?_, ?_, rfl⟩
              · exact .more hnewlines hbehindNewlines hpieces
              · simpa using And.intro hphrase hphrases
          | false =>
              simp only [Bool.false_eq_true, if_false, bind_eq_ok, pure_eq_ok] at h
              obtain ⟨token, _, hclosing, rfl, rfl⟩ := h
              obtain ⟨position, rfl, rfl⟩ := symbol_eq_ok hclosing
              refine ⟨hbehindEnding.trans (hstop.trans hending),
                [⟨start.tokens, stop.tokens, first⟩], ?_, ?_, rfl⟩
              · exact .last hnewlines hbehindNewlines
              · simpa using hphrase

theorem sound_commaList {closing : Symbol} {item : Parser α}
    {phrase : List Token → List Token → α → Prop} (hitem : Sound item phrase) :
    Sound (commaList closing item) (CommaList closing phrase) := by
  intro input output values h
  simp only [commaList, bind_eq_ok, remaining_eq_ok] at h
  obtain ⟨_, _, ⟨rfl, rfl⟩, h⟩ := h
  exact sound_itemsUpTo hitem _ h

theorem join?_endOfInput (level : Level) : level.join? .endOfInput = none := by
  cases level <;> rfl

theorem sound_joinFrom {level next : Level} {joiner : Joiner} {operand : Parser Expr}
    (htighter : level.tighter? = some next) (hjoiner : JoinsLevel joiner level)
    (hoperand : Sound operand (Expression next)) (rounds : Nat) {start : List Token}
    {left result : Expr} {input output : Lexed}
    (hleft : Expression level start input.tokens left)
    (h : joinFrom joiner operand rounds left input = .ok (result, output)) :
    output.ending = input.ending ∧ Expression level start output.tokens result := by
  induction rounds generalizing left input with
  | zero =>
      obtain ⟨rfl, rfl⟩ := pure_eq_ok.mp h
      exact ⟨rfl, hleft⟩
  | succ rounds ih =>
      simp only [joinFrom, bind_eq_ok, current_eq_ok] at h
      obtain ⟨⟨kind, position⟩, _, ⟨hcurrent, rfl⟩, h⟩ := h
      cases hjoin : level.join? kind with
      | none =>
          simp only [hjoiner _, hjoin, Option.map_none, pure_eq_ok] at h
          obtain ⟨rfl, rfl⟩ := h
          exact ⟨rfl, hleft⟩
      | some join =>
          simp only [hjoiner _, hjoin, Option.map_some, bind_eq_ok] at h
          obtain ⟨token, middle, hadvance, right, behind, hright, h⟩ := h
          have hkind : kind ≠ .endOfInput := by
            rintro rfl
            simp [join?_endOfInput] at hjoin
          obtain ⟨rfl, rfl⟩ := advance_at hadvance hcurrent hkind
          obtain ⟨hending, hphrase⟩ := hoperand hright
          obtain ⟨houtput, hresult⟩ := ih (.joined hjoin htighter hleft hphrase) h
          exact ⟨houtput.trans hending, hresult⟩

theorem sound_joined {level next : Level} {joiner : Joiner} {operand : Parser Expr}
    (htighter : level.tighter? = some next) (hjoiner : JoinsLevel joiner level)
    (hoperand : Sound operand (Expression next)) :
    Sound (joined joiner operand) (Expression level) := by
  intro input output result h
  simp only [joined, bind_eq_ok, remaining_eq_ok] at h
  obtain ⟨first, middle, hfirst, _, _, ⟨rfl, rfl⟩, h⟩ := h
  obtain ⟨hending, hphrase⟩ := hoperand hfirst
  obtain ⟨houtput, hresult⟩ :=
    sound_joinFrom htighter hjoiner hoperand _ (.tighter htighter hphrase) h
  exact ⟨houtput.trans hending, hresult⟩

theorem sound_constant {value : Literal} {kind : TokenKind} {position : Position}
    (hconstant : constant? kind = some value) {input output : Lexed} {result : Expr}
    (hcurrent : input.current = ⟨kind, position⟩)
    (h : constant value position.line input = .ok (result, output)) :
    output.ending = input.ending ∧ Expression .primary input.tokens output.tokens result := by
  simp only [constant, bind_eq_ok, pure_eq_ok] at h
  obtain ⟨token, _, hadvance, rfl, rfl⟩ := h
  have hkind : kind ≠ .endOfInput := by
    rintro rfl
    simp [constant?] at hconstant
  obtain ⟨rfl, rfl⟩ := advance_at hadvance hcurrent hkind
  exact ⟨rfl, .constant hconstant⟩

section

variable {expression : Parser Expr} (hexpression : Sound expression (Expression .disjunction))

include hexpression

theorem sound_callOf {name : String} {position : Position} {input output : Lexed} {result : Expr}
    (h : callOf expression name position.line input = .ok (result, output)) :
    output.ending = input.ending ∧
      Expression .primary (⟨.word name, position⟩ :: input.tokens) output.tokens result ∧
      ∃ arguments, result = .call name arguments position.line := by
  simp only [callOf, bind_eq_ok, pure_eq_ok] at h
  obtain ⟨token, middle, hopening, arguments, _, harguments, rfl, rfl⟩ := h
  obtain ⟨opening, rfl, rfl⟩ := symbol_eq_ok hopening
  obtain ⟨hending, pieces, hpieces, hphrases, rfl⟩ := sound_commaList hexpression harguments
  exact ⟨hending, .call hpieces hphrases, _, rfl⟩

theorem sound_entry :
    Sound (entry expression) fun input rest tree =>
      ∃ middle, Key input tree.1 middle ∧ Expression .disjunction middle rest tree.2 := by
  intro input output result h
  simp only [entry, bind_eq_ok, pure_eq_ok] at h
  obtain ⟨key, behind, hkey, colon, middle, hcolon, _, start, hskip, value, _, hvalue, rfl, rfl⟩ := h
  obtain ⟨colonPosition, rfl, rfl⟩ := symbol_eq_ok hcolon
  obtain ⟨hstart, hnewlines⟩ := sound_skipNewlines hskip
  obtain ⟨hending, hphrase⟩ := hexpression hvalue
  simp only [entryKey, bind_eq_ok, current_eq_ok] at hkey
  obtain ⟨⟨kind, position⟩, _, ⟨hcurrent, rfl⟩, hkey⟩ := hkey
  cases kind with
  | text found =>
      simp only [bind_eq_ok, pure_eq_ok] at hkey
      obtain ⟨token, _, hadvance, rfl, rfl⟩ := hkey
      obtain ⟨rfl, rfl⟩ := advance_at hadvance hcurrent (by simp)
      exact ⟨hending.trans hstart, start.tokens, .text hnewlines, hphrase⟩
  | _ =>
      obtain ⟨wordPosition, rfl⟩ := word_eq_ok hkey
      exact ⟨hending.trans hstart, start.tokens, .word hnewlines, hphrase⟩

theorem sound_primary : Sound (primary expression) (Expression .primary) := by
  intro input output result h
  simp only [primary, bind_eq_ok, current_eq_ok] at h
  obtain ⟨⟨kind, position⟩, _, ⟨hcurrent, rfl⟩, h⟩ := h
  cases kind with
  | number value => exact sound_constant rfl hcurrent h
  | text value => exact sound_constant rfl hcurrent h
  | word name =>
      simp only [bind_eq_ok, isAt_eq_ok] at h
      obtain ⟨token, middle, hadvance, called, _, ⟨hcalled, rfl⟩, h⟩ := h
      obtain ⟨rfl, rfl⟩ := advance_at hadvance hcurrent (by simp)
      cases called with
      | true =>
          obtain ⟨hending, hphrase, _⟩ := sound_callOf hexpression h
          exact ⟨hending, hphrase⟩
      | false =>
          obtain ⟨rfl, rfl⟩ := pure_eq_ok.mp h
          exact ⟨rfl, .var⟩
  | keyword reserved =>
      cases reserved with
      | satya => exact sound_constant rfl hcurrent h
      | asatya => exact sound_constant rfl hcurrent h
      | khali => exact sound_constant rfl hcurrent h
      | _ => exact absurd h fail_ne_ok
  | symbol mark =>
      cases mark with
      | leftBracket =>
          simp only [bind_eq_ok, pure_eq_ok] at h
          obtain ⟨token, middle, hadvance, elements, _, helements, rfl, rfl⟩ := h
          obtain ⟨rfl, rfl⟩ := advance_at hadvance hcurrent (by simp)
          obtain ⟨hending, pieces, hpieces, hphrases, rfl⟩ := sound_commaList hexpression helements
          exact ⟨hending, .list hpieces hphrases⟩
      | leftBrace =>
          simp only [bind_eq_ok, pure_eq_ok] at h
          obtain ⟨token, middle, hadvance, fields, _, hfields, rfl, rfl⟩ := h
          obtain ⟨rfl, rfl⟩ := advance_at hadvance hcurrent (by simp)
          obtain ⟨hending, pieces, hpieces, hphrases, rfl⟩ :=
            sound_commaList (sound_entry hexpression) hfields
          obtain ⟨entries, rfl, hkeys, hvalues⟩ := exists_entries hphrases
          have htrees : (entries.map Entry.piece).map Piece.tree =
              entries.map fun entry => (entry.key, entry.value) := by
            simp [Entry.piece]
          rw [htrees]
          exact ⟨hending, .record hpieces hkeys hvalues⟩
      | leftParen =>
          simp only [bind_eq_ok, pure_eq_ok] at h
          obtain ⟨token, middle, hadvance, inner, _, hinner, closing, _, hclosing, rfl, rfl⟩ := h
          obtain ⟨rfl, rfl⟩ := advance_at hadvance hcurrent (by simp)
          obtain ⟨closingPosition, rfl, rfl⟩ := symbol_eq_ok hclosing
          obtain ⟨hending, hphrase⟩ := hexpression hinner
          exact ⟨hending, .parentheses hphrase⟩
      | _ => exact absurd h fail_ne_ok
  | newline => exact absurd h fail_ne_ok
  | endOfInput => exact absurd h fail_ne_ok

theorem sound_suffixes (rounds : Nat) {start : List Token} {target result : Expr}
    {input output : Lexed} (htarget : Expression .suffixed start input.tokens target)
    (h : suffixes expression rounds target input = .ok (result, output)) :
    output.ending = input.ending ∧ Expression .suffixed start output.tokens result := by
  induction rounds generalizing target input with
  | zero =>
      obtain ⟨rfl, rfl⟩ := pure_eq_ok.mp h
      exact ⟨rfl, htarget⟩
  | succ rounds ih =>
      simp only [suffixes, bind_eq_ok, current_eq_ok] at h
      obtain ⟨⟨kind, position⟩, _, ⟨hcurrent, rfl⟩, h⟩ := h
      have hstop : (pure target : Parser Expr) input = .ok (result, output) →
          output.ending = input.ending ∧ Expression .suffixed start output.tokens result := by
        intro hpure
        obtain ⟨rfl, rfl⟩ := pure_eq_ok.mp hpure
        exact ⟨rfl, htarget⟩
      cases kind with
      | symbol mark =>
          cases mark with
          | leftBracket =>
              simp only [bind_eq_ok] at h
              obtain ⟨token, middle, hadvance, place, behind, hplace, closing, _, hclosing, h⟩ := h
              obtain ⟨rfl, rfl⟩ := advance_at hadvance hcurrent (by simp)
              obtain ⟨closingPosition, rfl, rfl⟩ := symbol_eq_ok hclosing
              obtain ⟨hending, hphrase⟩ := hexpression hplace
              obtain ⟨houtput, hresult⟩ := ih (.index htarget hphrase) h
              exact ⟨houtput.trans hending, hresult⟩
          | dot =>
              simp only [bind_eq_ok] at h
              obtain ⟨token, middle, hadvance, name, _, hname, h⟩ := h
              obtain ⟨rfl, rfl⟩ := advance_at hadvance hcurrent (by simp)
              obtain ⟨namePosition, rfl⟩ := word_eq_ok hname
              obtain ⟨houtput, hresult⟩ := ih (.property htarget) h
              exact ⟨houtput, hresult⟩
          | _ => exact hstop h
      | _ => exact hstop h

theorem sound_suffixed : Sound (suffixed expression) (Expression .suffixed) := by
  intro input output result h
  simp only [suffixed, bind_eq_ok, remaining_eq_ok] at h
  obtain ⟨target, middle, htarget, _, _, ⟨rfl, rfl⟩, h⟩ := h
  obtain ⟨hending, hphrase⟩ := sound_primary hexpression htarget
  obtain ⟨houtput, hresult⟩ := sound_suffixes hexpression _ (.tighter rfl hphrase) h
  exact ⟨houtput.trans hending, hresult⟩

theorem sound_signed (rounds : Nat) : Sound (signed expression rounds) (Expression .unary) := by
  induction rounds with
  | zero =>
      intro input output result h
      obtain ⟨hending, hphrase⟩ := sound_suffixed hexpression h
      exact ⟨hending, .tighter rfl hphrase⟩
  | succ rounds ih =>
      intro input output result h
      simp only [signed, bind_eq_ok, current_eq_ok, unaryOp?_eq] at h
      obtain ⟨⟨kind, position⟩, _, ⟨hcurrent, rfl⟩, h⟩ := h
      cases hsign : sign? kind with
      | none =>
          simp only [hsign] at h
          obtain ⟨hending, hphrase⟩ := sound_suffixed hexpression h
          exact ⟨hending, .tighter rfl hphrase⟩
      | some op =>
          simp only [hsign, bind_eq_ok, pure_eq_ok] at h
          obtain ⟨token, middle, hadvance, operand, _, hoperand, rfl, rfl⟩ := h
          have hkind : kind ≠ .endOfInput := by
            rintro rfl
            simp [sign?] at hsign
          obtain ⟨rfl, rfl⟩ := advance_at hadvance hcurrent hkind
          obtain ⟨hending, hphrase⟩ := ih hoperand
          exact ⟨hending, .sign hsign hphrase⟩

theorem sound_unary : Sound (unary expression) (Expression .unary) := by
  intro input output result h
  simp only [unary, bind_eq_ok, remaining_eq_ok] at h
  obtain ⟨_, _, ⟨rfl, rfl⟩, h⟩ := h
  exact sound_signed hexpression _ h

theorem sound_multiplicative : Sound (multiplicative expression) (Expression .multiplicative) :=
  sound_joined rfl joinsLevel_multiplicative (sound_unary hexpression)

theorem sound_additive : Sound (additive expression) (Expression .additive) :=
  sound_joined rfl joinsLevel_additive (sound_multiplicative hexpression)

theorem sound_comparison : Sound (comparison expression) (Expression .comparison) :=
  sound_joined rfl joinsLevel_comparison (sound_additive hexpression)

theorem sound_conjunction : Sound (conjunction expression) (Expression .conjunction) :=
  sound_joined rfl joinsLevel_andJoiner (sound_comparison hexpression)

theorem sound_disjunction : Sound (disjunction expression) (Expression .disjunction) :=
  sound_joined rfl joinsLevel_orJoiner (sound_conjunction hexpression)

end

theorem sound_expressionWithin (depth : Nat) :
    Sound (expressionWithin depth) (Expression .disjunction) := by
  induction depth with
  | zero => exact sound_fail _ _
  | succ depth ih => exact sound_disjunction ih

theorem sound_expression : Sound expression (Expression .disjunction) := by
  intro input output result h
  simp only [expression, level, bind_eq_ok, remaining_eq_ok] at h
  obtain ⟨_, _, ⟨rfl, rfl⟩, h⟩ := h
  exact sound_disjunction (sound_expressionWithin _) h

end Parser

end Bhasha
