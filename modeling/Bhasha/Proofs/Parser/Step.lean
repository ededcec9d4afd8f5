import Bhasha.Parser.Basic
import Bhasha.Proofs.Grammar.Layout

/-!
# What the basic parsers read

A parser that ends well leaves some of the tokens over and does not touch how they end.  Here
this is made precise for the basic parsers: those that require a token of some class, and those
that read newlines and lists with commas.
-/

namespace Bhasha

namespace Parser

variable {α β : Type} {input output : Lexed}

theorem bind_eq_ok {first : Parser α} {next : α → Parser β} {result : β} :
    (first >>= next) input = .ok (result, output) ↔
      ∃ value middle, first input = .ok (value, middle) ∧
        next value middle = .ok (result, output) := by
  change (first input >>= fun p => next p.1 p.2) = _ ↔ _
  cases first input with
  | error error => simp [bind, Except.bind]
  | ok p =>
      constructor
      · intro h
        exact ⟨p.1, p.2, rfl, h⟩
      · rintro ⟨value, middle, hfirst, hnext⟩
        cases hfirst
        exact hnext

theorem pure_eq_ok {value result : α} :
    (pure value : Parser α) input = .ok (result, output) ↔ value = result ∧ input = output := by
  change Except.ok (value, input) = Except.ok (result, output) ↔ _
  simp

theorem current_eq_ok {token : Token} :
    current input = .ok (token, output) ↔ input.current = token ∧ input = output := by
  simp [current]

theorem remaining_eq_ok {count : Nat} :
    remaining input = .ok (count, output) ↔ input.tokens.length = count ∧ input = output := by
  simp [remaining]

theorem fail_ne_ok {cause : TokenClass → SyntaxCause} {result : α} :
    (fail cause : Parser α) input ≠ .ok (result, output) := by
  simp [fail]

theorem isAt_eq_ok {expected : TokenClass} {found : Bool} :
    isAt expected input = .ok (found, output) ↔
      decide (input.current.toClass = expected) = found ∧ input = output := by
  simp only [isAt, bind_eq_ok, current_eq_ok, pure_eq_ok]
  constructor
  · rintro ⟨_, _, ⟨rfl, rfl⟩, rfl, rfl⟩
    exact ⟨rfl, rfl⟩
  · rintro ⟨rfl, rfl⟩
    exact ⟨_, _, ⟨rfl, rfl⟩, rfl, rfl⟩

theorem settle_eq_ok (h : input.settle = .ok output) : output = input := by
  obtain ⟨tokens, ending⟩ := input
  cases tokens <;> cases ending <;> simp_all [Lexed.settle]

theorem advance_eq_ok {token : Token} (h : advance input = .ok (token, output)) :
    token = input.current ∧ output = { input with tokens := input.tokens.tail } := by
  unfold advance at h
  cases hsettle : Lexed.settle { input with tokens := input.tokens.tail } with
  | error error => simp [hsettle, bind, Except.bind] at h
  | ok next =>
      simp only [hsettle, bind, Except.bind, Except.ok.injEq, Prod.mk.injEq] at h
      obtain ⟨rfl, rfl⟩ := h
      exact ⟨rfl, settle_eq_ok hsettle⟩

/-- At a token that is not the end of the input, the tokens that are left start with it. -/
theorem eq_cons_of_current {token : Token} (h : input.current = token)
    (hkind : token.kind ≠ .endOfInput) :
    input = { input with tokens := token :: input.tokens.tail } := by
  obtain ⟨tokens, ending⟩ := input
  cases tokens with
  | nil => cases ending <;> (subst h; exact absurd rfl hkind)
  | cons first rest =>
      have hfirst : first = token := h
      rw [hfirst]
      rfl

/-- Consuming a token that is not the end of the input. -/
theorem advance_at {token consumed : Token} (h : advance input = .ok (consumed, output))
    (hcurrent : input.current = token) (hkind : token.kind ≠ .endOfInput) :
    consumed = token ∧ input = ⟨token :: output.tokens, output.ending⟩ := by
  obtain ⟨rfl, rfl⟩ := advance_eq_ok h
  exact ⟨hcurrent, eq_cons_of_current hcurrent hkind⟩

theorem skipNewlines_eq_ok {done : Unit} (h : skipNewlines input = .ok (done, output)) :
    output = { input with tokens := input.tokens.dropWhile (·.kind = .newline) } := by
  unfold skipNewlines at h
  cases hsettle : Lexed.settle
      { input with tokens := input.tokens.dropWhile (·.kind = .newline) } with
  | error error => simp [hsettle, bind, Except.bind] at h
  | ok next =>
      simp only [hsettle, bind, Except.bind, Except.ok.injEq, Prod.mk.injEq] at h
      rw [← h.2]
      exact settle_eq_ok hsettle

theorem eq_of_toClass_symbol {token : Token} {mark : Symbol}
    (h : token.toClass = .symbol mark) : ∃ position, token = ⟨.symbol mark, position⟩ := by
  obtain ⟨kind, position⟩ := token
  cases kind <;> simp_all [Token.toClass, TokenKind.toClass]

theorem eq_of_toClass_keyword {token : Token} {reserved : Keyword}
    (h : token.toClass = .keyword reserved) :
    ∃ position, token = ⟨.keyword reserved, position⟩ := by
  obtain ⟨kind, position⟩ := token
  cases kind <;> simp_all [Token.toClass, TokenKind.toClass]

theorem expect_eq_ok {expected : TokenClass} {token : Token}
    (h : expect expected input = .ok (token, output)) (hexpected : expected ≠ .endOfInput) :
    token.toClass = expected ∧ input = ⟨token :: output.tokens, output.ending⟩ := by
  simp only [expect, bind_eq_ok, isAt_eq_ok] at h
  obtain ⟨found, middle, ⟨hfound, rfl⟩, h⟩ := h
  cases found with
  | false => exact absurd h fail_ne_ok
  | true =>
      have hclass : input.current.toClass = expected := of_decide_eq_true hfound
      have hkind : input.current.kind ≠ .endOfInput := by
        intro hend
        apply hexpected
        rw [← hclass, Token.toClass, hend]
        rfl
      obtain ⟨rfl, hinput⟩ := advance_at h rfl hkind
      exact ⟨hclass, hinput⟩

theorem symbol_eq_ok {expected : Symbol} {token : Token}
    (h : symbol expected input = .ok (token, output)) :
    ∃ position, token = ⟨.symbol expected, position⟩ ∧
      input = ⟨⟨.symbol expected, position⟩ :: output.tokens, output.ending⟩ := by
  obtain ⟨hclass, hinput⟩ := expect_eq_ok h (by simp)
  obtain ⟨position, rfl⟩ := eq_of_toClass_symbol hclass
  exact ⟨position, rfl, hinput⟩

theorem keyword_eq_ok {expected : Keyword} {token : Token}
    (h : keyword expected input = .ok (token, output)) :
    ∃ position, token = ⟨.keyword expected, position⟩ ∧
      input = ⟨⟨.keyword expected, position⟩ :: output.tokens, output.ending⟩ := by
  obtain ⟨hclass, hinput⟩ := expect_eq_ok h (by simp)
  obtain ⟨position, rfl⟩ := eq_of_toClass_keyword hclass
  exact ⟨position, rfl, hinput⟩

/-- A symbol that has been seen is consumed as one that is required. -/
theorem advance_symbol {expected : Symbol} {token : Token}
    (hclass : input.current.toClass = .symbol expected)
    (h : advance input = .ok (token, output)) :
    ∃ position, token = ⟨.symbol expected, position⟩ ∧
      input = ⟨⟨.symbol expected, position⟩ :: output.tokens, output.ending⟩ := by
  apply symbol_eq_ok
  simp [symbol, expect, bind_eq_ok, isAt_eq_ok, hclass, h]

/-- A reserved word that has been seen is consumed as one that is required. -/
theorem advance_keyword {expected : Keyword} {token : Token}
    (hclass : input.current.toClass = .keyword expected)
    (h : advance input = .ok (token, output)) :
    ∃ position, token = ⟨.keyword expected, position⟩ ∧
      input = ⟨⟨.keyword expected, position⟩ :: output.tokens, output.ending⟩ := by
  apply keyword_eq_ok
  simp [keyword, expect, bind_eq_ok, isAt_eq_ok, hclass, h]

theorem word_eq_ok {name : String} (h : word input = .ok (name, output)) :
    ∃ position, input = ⟨⟨.word name, position⟩ :: output.tokens, output.ending⟩ := by
  simp only [word, bind_eq_ok, current_eq_ok] at h
  obtain ⟨⟨kind, position⟩, middle, ⟨hcurrent, rfl⟩, h⟩ := h
  cases kind with
  | word found =>
      simp only [bind_eq_ok, pure_eq_ok] at h
      obtain ⟨consumed, middle, hadvance, rfl, rfl⟩ := h
      exact ⟨position, (advance_at hadvance hcurrent (by simp)).2⟩
  | _ => exact absurd h fail_ne_ok

end Parser

end Bhasha
