import Bhasha.Proofs.Parser.Composed
import Bhasha.Proofs.Parser.Step

/-!
# The place at which a parser ends

A parser takes some tokens off the front.  It ends well in front of what is left, or it refuses the
token there, or it has taken all tokens and comes upon the lexical error behind them.  The number of
tokens taken is the place of the end.
-/

namespace Bhasha

namespace Lexed

/-- What is left when some tokens have been taken off. -/
def drop (input : Lexed) (count : Nat) : Lexed :=
  { input with tokens := input.tokens.drop count }

/-- There is a current token, if it were the end of the input. -/
def Settled (input : Lexed) : Prop :=
  input.settle = .ok input

@[simp] theorem ending_drop (input : Lexed) (count : Nat) :
    (input.drop count).ending = input.ending :=
  rfl

@[simp] theorem length_drop (input : Lexed) (count : Nat) :
    (input.drop count).tokens.length = input.tokens.length - count :=
  List.length_drop

theorem drop_drop (input : Lexed) (first second : Nat) :
    (input.drop first).drop second = input.drop (first + second) := by
  unfold drop
  rw [List.drop_drop]

theorem settled_or_cut (input : Lexed) :
    input.Settled ∨ ∃ error, input = ⟨[], .error error⟩ := by
  obtain ⟨tokens, ending⟩ := input
  cases tokens with
  | cons token rest => exact .inl rfl
  | nil =>
      cases ending with
      | ok position => exact .inl rfl
      | error error => exact .inr ⟨error, rfl⟩

theorem not_settled_cut (error : LexicalError) : ¬Settled ⟨[], .error error⟩ :=
  nofun

theorem exists_drop {input : Lexed} {rest : List Token} (h : rest <:+ input.tokens) :
    ∃ count ≤ input.tokens.length, { input with tokens := rest } = input.drop count := by
  obtain ⟨taken, htokens⟩ := h
  refine ⟨taken.length, ?_, ?_⟩
  · rw [← htokens, List.length_append]
    omega
  · rw [drop, ← htokens, List.drop_left]

end Lexed

namespace Parser

variable {α β : Type} {input : Lexed} {count : Nat}

/-- The refusal of the token at the front. -/
def refusal (cause : TokenClass → SyntaxCause) (input : Lexed) : SyntaxError :=
  ⟨cause input.current.toClass, input.current.line⟩

/-- A parser has taken so many tokens when it ends. -/
def EndsAfter (input : Lexed) (count : Nat) : Except ParseError (α × Lexed) → Prop
  | .ok (_, output) =>
      count ≤ input.tokens.length ∧ output = input.drop count ∧ output.Settled
  | .error (.grammar error) =>
      count ≤ input.tokens.length ∧ (input.drop count).Settled ∧
        ∃ cause, error = refusal cause (input.drop count)
  | .error (.lexical error) => count = input.tokens.length ∧ input.ending = .error error

theorem endsAfter_settle (hcount : count ≤ input.tokens.length) (value : α) :
    EndsAfter input count (do
      let next ← (input.drop count).settle
      .ok (value, next)) := by
  rcases (input.drop count).settled_or_cut with hsettled | ⟨error, hcut⟩
  · have hsettle : (input.drop count).settle = .ok (input.drop count) := hsettled
    rw [hsettle]
    exact ⟨hcount, rfl, hsettled⟩
  · have hlength := input.length_drop count
    have hending := input.ending_drop count
    rw [hcut] at hlength hending ⊢
    have hlast : input.tokens.length - count = 0 := hlength.symm
    exact ⟨by omega, hending.symm⟩

theorem EndsAfter.of_error {error : ParseError}
    (h : EndsAfter input count (.error error : Except ParseError (α × Lexed))) :
    EndsAfter input count (.error error : Except ParseError (β × Lexed)) := by
  cases error with
  | grammar error => exact h
  | lexical error => exact h

theorem EndsAfter.add {later : Nat} {result : Except ParseError (α × Lexed)}
    (h : EndsAfter (input.drop count) later result) (hcount : count ≤ input.tokens.length) :
    EndsAfter input (count + later) result := by
  have hlength := input.length_drop count
  cases result with
  | ok read =>
      obtain ⟨hlater, hread, hsettled⟩ := h
      rw [Lexed.drop_drop] at hread
      exact ⟨by omega, hread, hsettled⟩
  | error error =>
      cases error with
      | grammar error =>
          obtain ⟨hlater, hsettled, cause, herror⟩ := h
          rw [Lexed.drop_drop] at hsettled herror
          exact ⟨by omega, hsettled, cause, herror⟩
      | lexical error =>
          obtain ⟨hlater, hending⟩ := h
          exact ⟨by omega, hending⟩

theorem bind_apply_ok {first : Parser α} {next : α → Parser β} {value : α} {middle : Lexed}
    (h : first input = .ok (value, middle)) : (first >>= next) input = next value middle := by
  change (first input >>= fun read => next read.1 read.2) = _
  rw [h]
  rfl

theorem bind_apply_error {first : Parser α} {next : α → Parser β} {error : ParseError}
    (h : first input = .error error) : (first >>= next) input = .error error := by
  change (first input >>= fun read => next read.1 read.2) = _
  rw [h]
  rfl

/-- Every parser ends at some place of its input. -/
theorem Composed.exists_endsAfter {parser : Parser α} (h : Composed parser) {input : Lexed}
    (hinput : input.Settled) : ∃ count, EndsAfter input count (parser input) := by
  induction h generalizing input with
  | pure value => exact ⟨0, Nat.zero_le _, rfl, hinput⟩
  | @bind α β first next _ _ ih ihnext =>
      obtain ⟨count, hfirst⟩ := ih hinput
      cases hresult : first input with
      | ok read =>
          rw [hresult] at hfirst
          obtain ⟨hcount, hread, hsettled⟩ := hfirst
          obtain ⟨later, hnext⟩ := ihnext read.1 hsettled
          rw [bind_apply_ok hresult]
          rw [hread] at hnext ⊢
          exact ⟨count + later, hnext.add hcount⟩
      | error error =>
          rw [hresult] at hfirst
          rw [bind_apply_error hresult]
          exact ⟨count, hfirst.of_error⟩
  | current => exact ⟨0, Nat.zero_le _, rfl, hinput⟩
  | remaining => exact ⟨0, Nat.zero_le _, rfl, hinput⟩
  | fail cause => exact ⟨0, Nat.zero_le _, hinput, cause, rfl⟩
  | advance =>
      obtain ⟨count, hcount, hdrop⟩ := Lexed.exists_drop (List.tail_suffix input.tokens)
      have hadvance : Parser.advance input = (do
          let next ← (input.drop count).settle
          .ok (input.current, next)) := by
        rw [← hdrop]
        rfl
      rw [hadvance]
      exact ⟨count, endsAfter_settle hcount _⟩
  | skipNewlines =>
      obtain ⟨count, hcount, hdrop⟩ := Lexed.exists_drop
        (List.dropWhile_suffix (·.kind = .newline) (l := input.tokens))
      have hskip : Parser.skipNewlines input = (do
          let next ← (input.drop count).settle
          .ok ((), next)) := by
        rw [← hdrop]
        rfl
      rw [hskip]
      exact ⟨count, endsAfter_settle hcount _⟩

end Parser

end Bhasha
