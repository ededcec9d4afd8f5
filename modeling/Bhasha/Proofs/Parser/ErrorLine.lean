import Bhasha.Proofs.Parser.Composed

/-!
# The lines of parse errors

A parser only ever points at the token in front of it, or passes on the error in which the tokens
end.  So its errors are on lines of its input, and since the input that it leaves over is a part
of the one that it was given, this stays so when parsers are put together.
-/

namespace Bhasha

/-- The line of the place where the tokens end. -/
def Lexed.lastLine (input : Lexed) : Nat :=
  match input.ending with
  | .ok position => position.line
  | .error error => error.line

/-- All lines of the input have a property, and the first line of a source text has it too. -/
structure Lexed.Within (good : Nat → Prop) (input : Lexed) : Prop where
  first : good Position.start.line
  tokens : ∀ token ∈ input.tokens, good token.line
  last : good input.lastLine

namespace Parser

variable {α β : Type} {good : Nat → Prop}

/-- On input whose lines have a property, the parser leaves such input over, or reports an error
on a line with the property. -/
def ReportsWithin (good : Nat → Prop) (parser : Parser α) : Prop :=
  ∀ input : Lexed, input.Within good →
    match parser input with
    | .ok (_, output) => output.Within good
    | .error error => good error.line

theorem within_settle {input : Lexed} (h : input.Within good) :
    match input.settle with
    | .ok output => output.Within good
    | .error error => good error.line := by
  obtain ⟨tokens, ending⟩ := input
  cases tokens with
  | cons token rest => exact h
  | nil =>
      cases ending with
      | ok position => exact h
      | error error => exact h.last

theorem good_current_line {input : Lexed} (h : input.Within good) : good input.current.line := by
  obtain ⟨tokens, ending⟩ := input
  cases tokens with
  | cons token rest => exact h.tokens token (by simp)
  | nil =>
      cases ending with
      | ok position => exact h.last
      | error error => exact h.first

/-- Tokens may be taken off the front. -/
theorem within_of_sublist {input : Lexed} (h : input.Within good) {rest : List Token}
    (hrest : rest <:+ input.tokens) : Lexed.Within good { input with tokens := rest } :=
  ⟨h.first, fun token htoken => h.tokens token (hrest.mem htoken), h.last⟩

theorem ReportsWithin.bind {first : Parser α} {next : α → Parser β} (h : ReportsWithin good first)
    (hnext : ∀ value, ReportsWithin good (next value)) : ReportsWithin good (first >>= next) := by
  intro input hinput
  have hfirst := h input hinput
  change match (first input >>= fun p => next p.1 p.2) with
    | .ok (_, output) => output.Within good
    | .error error => good error.line
  cases hresult : first input with
  | error error =>
      rw [hresult] at hfirst
      exact hfirst
  | ok p =>
      rw [hresult] at hfirst
      exact hnext p.1 p.2 hfirst

/-- Taking tokens off the front brings up the error in which the tokens end, if no token is
left. -/
theorem within_settled {result : Lexed → α} {rest : List Token → List Token}
    (hrest : ∀ tokens, rest tokens <:+ tokens) :
    ReportsWithin good (fun input => do
      let next ← Lexed.settle { input with tokens := rest input.tokens }
      .ok (result input, next)) := by
  intro input hinput
  have hsettle := within_settle (within_of_sublist hinput (hrest input.tokens))
  simp only
  generalize Lexed.settle { input with tokens := rest input.tokens } = settled at hsettle ⊢
  cases settled with
  | error error => exact hsettle
  | ok output => exact hsettle

/-- Only the basic parsers look at the input, so what holds of them holds of all. -/
theorem Composed.reportsWithin {parser : Parser α} (h : Composed parser) :
    ReportsWithin good parser := by
  induction h with
  | pure => exact fun _ hinput => hinput
  | bind _ _ ih ihnext => exact ih.bind ihnext
  | current => exact fun _ hinput => hinput
  | remaining => exact fun _ hinput => hinput
  | fail cause => exact fun _ hinput => good_current_line hinput
  | advance => exact within_settled List.tail_suffix
  | skipNewlines => exact within_settled fun _ => List.dropWhile_suffix _

theorem within_program : ReportsWithin good program :=
  composed_program.reportsWithin

/-- Reading a source text fails, if it does, on a line of its tokens or of their end. -/
theorem good_line_of_readFront {parser : Parser α} {source : String} {error : ParseError}
    (hparser : ReportsWithin good parser) (hlex : (Lexer.lex source).Within good)
    (h : readFront parser source = .error error) : good error.line := by
  have hsettle := within_settle hlex
  unfold readFront at h
  cases hsettled : (Lexer.lex source).settle with
  | error found =>
      rw [hsettled] at h hsettle
      cases h
      exact hsettle
  | ok input =>
      rw [hsettled] at h hsettle
      have hread := hparser input hsettle
      change (parser input >>= fun p => Except.ok p.1) = _ at h
      cases hresult : parser input with
      | error found =>
          rw [hresult] at h hread
          cases h
          exact hread
      | ok p =>
          rw [hresult] at h
          cases h

end Parser

end Bhasha
