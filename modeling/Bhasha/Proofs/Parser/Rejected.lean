import Bhasha.Proofs.Parser.LockstepStatement

/-!
# The token that is rejected

A source text is refused at the first token that does not fit.  To say which one this is, the tokens
are put on lines of their own, since the line of the error is the number of the token then.  The
parser goes along with itself on the numbered tokens, and on the beginning of the tokens as well.
-/

namespace Bhasha

namespace Lexed

/-- The tokens, and behind them the end of the input unless they end in a lexical error. -/
def allTokens (input : Lexed) : List Token :=
  match input.ending with
  | .ok position => input.tokens ++ [⟨.endOfInput, position⟩]
  | .error _ => input.tokens

/-- The tokens on lines of their own, which are numbered from one. -/
def numbered (input : Lexed) : Lexed where
  tokens := input.tokens.mapIdx fun index token => ⟨token.kind, ⟨index + 1, 1⟩⟩
  ending := input.ending.map fun _ => ⟨input.tokens.length + 1, 1⟩

variable {input front whole : Lexed} {count : Nat}

theorem current_of_lt (h : count < input.tokens.length) :
    (input.drop count).current = input.tokens[count] := by
  unfold drop
  rw [List.drop_eq_getElem_cons h]
  rfl

theorem current_of_length (hsettled : (input.drop input.tokens.length).Settled) :
    ∃ position, input.ending = .ok position ∧
      (input.drop input.tokens.length).current = ⟨.endOfInput, position⟩ := by
  have hdrop : input.drop input.tokens.length = ⟨[], input.ending⟩ := by
    unfold drop
    rw [List.drop_length]
  rw [hdrop] at hsettled ⊢
  cases hending : input.ending with
  | ok position => exact ⟨position, rfl, rfl⟩
  | error error =>
      rw [hending] at hsettled
      exact absurd hsettled (not_settled_cut error)

theorem allTokens_of_settled (hcount : count ≤ input.tokens.length)
    (hsettled : (input.drop count).Settled) :
    input.allTokens[count]? = some (input.drop count).current := by
  rcases Nat.lt_or_eq_of_le hcount with hlt | rfl
  · rw [current_of_lt hlt]
    unfold allTokens
    cases input.ending with
    | ok position => simp [List.getElem?_append_left hlt]
    | error error => simp
  · obtain ⟨position, hending, hcurrent⟩ := current_of_length hsettled
    rw [hcurrent]
    unfold allTokens
    rw [hending]
    simp

theorem kinds_numbered (input : Lexed) :
    input.numbered.tokens.map Token.kind = input.tokens.map Token.kind := by
  apply List.ext_getElem
  · simp [numbered]
  · intro index _ _
    simp [numbered]

@[simp] theorem length_numbered (input : Lexed) :
    input.numbered.tokens.length = input.tokens.length := by
  simp [numbered]

theorem ending_of_numbered {position : Position} (h : input.numbered.ending = .ok position) :
    ∃ last, input.ending = .ok last := by
  unfold numbered at h
  cases hending : input.ending with
  | ok last => exact ⟨last, rfl⟩
  | error error =>
      rw [hending] at h
      cases h

theorem Begins.numbered (h : front.Begins whole) : front.numbered.Begins whole.numbered where
  kinds := by
    rw [kinds_numbered, kinds_numbered]
    exact h.kinds
  all position hending := by
    obtain ⟨last, hlast⟩ := ending_of_numbered hending
    obtain ⟨hlength, final, hfinal⟩ := h.all last hlast
    rw [length_numbered, length_numbered]
    refine ⟨hlength, ⟨whole.tokens.length + 1, 1⟩, ?_⟩
    exact congrArg (Except.map fun _ => Position.mk (whole.tokens.length + 1) 1) hfinal

theorem numbered_begins (input : Lexed) : input.numbered.Begins input where
  kinds := ⟨[], (List.append_nil _).trans (kinds_numbered input)⟩
  all position hending := by
    rw [length_numbered]
    exact ⟨rfl, ending_of_numbered hending⟩

theorem settled_numbered (h : input.Settled) : input.numbered.Settled := by
  rcases input.numbered.settled_or_cut with hsettled | ⟨error, hcut⟩
  · exact hsettled
  · have htokens := congrArg Lexed.tokens hcut
    have hending := congrArg Lexed.ending hcut
    have hlength := input.length_numbered
    rw [htokens] at hlength
    have hnil := List.eq_nil_of_length_eq_zero hlength.symm
    cases hlast : input.ending with
    | ok position =>
        unfold numbered at hending
        rw [hlast] at hending
        cases hending
    | error found =>
        have hinput : input = ⟨[], .error found⟩ := by rw [← hnil, ← hlast]
        exact absurd h (hinput ▸ not_settled_cut found)

theorem line_numbered (hcount : count ≤ input.tokens.length)
    (hsettled : (input.numbered.drop count).Settled) :
    (input.numbered.drop count).current.line = count + 1 := by
  rcases Nat.lt_or_eq_of_le hcount with hlt | heq
  · have hlength : count < input.numbered.tokens.length := by rwa [length_numbered]
    rw [current_of_lt hlength]
    simp [numbered, Token.line]
  · have hlength : count = input.numbered.tokens.length := by rwa [length_numbered]
    subst hlength
    obtain ⟨position, hending, hcurrent⟩ := current_of_length hsettled
    rw [hcurrent]
    unfold numbered at hending
    cases hlast : input.ending with
    | error error =>
        rw [hlast] at hending
        cases hending
    | ok last =>
        rw [hlast] at hending
        cases hending
        rw [length_numbered]
        rfl

end Lexed

/-- The program that tokens spell. -/
def Program.ofTokens (input : Lexed) : Except ParseError Program := do
  let input ← input.settle
  let (program, _) ← Parser.program input
  return program

/-- The number of the token that does not fit, if there is one. -/
def Program.rejected? (input : Lexed) : Option Nat :=
  match ofTokens input.numbered with
  | .error (.grammar error) => some error.line
  | _ => none

namespace Parser

variable {input front whole : Lexed} {error : SyntaxError}

theorem program_alongside (hbegins : front.Begins whole) (hfront : front.Settled) :
    Alongside 0 whole front (program whole) (program front) := by
  have h : Lockstep Anywhere (whole.tokens.length + 1) (front.tokens.length + 1) 0 program
      program := lockstep_program
  exact h.alongside whole front hbegins hfront (Nat.lt_succ_self _) (Nat.lt_succ_self _) trivial

theorem refusal_numbered {count : Nat} {cause : TokenClass → SyntaxCause}
    (hbegins : front.Begins whole) (hcount : count ≤ front.tokens.length)
    (hsettled : (front.numbered.drop count).Settled) :
    refusal cause (whole.numbered.drop count) = refusal cause (front.numbered.drop count) := by
  have hle := hbegins.length_le
  obtain ⟨hwhole, hkind⟩ := (hbegins.numbered.drop count).front_eq hsettled
  unfold refusal
  rw [Lexed.line_numbered hcount hsettled, Lexed.line_numbered (by omega) hwhole, Token.toClass,
    hkind]
  rfl

/-- What is refused on the beginning is refused on the whole. -/
theorem program_of_begins (hbegins : front.Begins whole) (hfront : front.Settled)
    (h : program front.numbered = .error (.grammar error)) :
    program whole.numbered = .error (.grammar error) := by
  have halong := program_alongside hbegins.numbered (Lexed.settled_numbered hfront)
  rw [h] at halong
  generalize program whole.numbered = result at halong ⊢
  cases halong with
  | refused hcount hsettled =>
      rw [Lexed.length_numbered] at hcount
      rw [refusal_numbered hbegins hcount hsettled]

/-- Cut off behind some tokens, the input is refused in the same way, or with the lexical error
there if the token that is refused has been cut off. -/
theorem program_of_whole {found : LexicalError} (hbegins : front.Begins whole)
    (hfront : front.Settled) (hending : front.ending = .error found)
    (h : program whole.numbered = .error (.grammar error)) :
    if error.line ≤ front.tokens.length then program front.numbered = .error (.grammar error)
    else program front.numbered = .error (.lexical found) := by
  have halong := program_alongside hbegins.numbered (Lexed.settled_numbered hfront)
  rw [h] at halong
  generalize program front.numbered = result at halong ⊢
  cases halong with
  | @refused count cause hcount hsettled =>
      rw [Lexed.length_numbered] at hcount
      -- In front of the lexical error there has to be a token.
      have hlt : count < front.tokens.length := by
        rcases Nat.lt_or_eq_of_le hcount with hlt | heq
        · exact hlt
        · rw [heq, ← front.length_numbered] at hsettled
          obtain ⟨position, hlast, -⟩ := Lexed.current_of_length hsettled
          obtain ⟨last, hlast⟩ := Lexed.ending_of_numbered hlast
          rw [hending] at hlast
          cases hlast
      have hline : (refusal cause (whole.numbered.drop count)).line = count + 1 := by
        rw [refusal_numbered hbegins hcount hsettled]
        exact Lexed.line_numbered hcount hsettled
      rw [if_pos (by omega), refusal_numbered hbegins hcount hsettled]
  | @cut count error _ hcut hcount hends =>
      obtain ⟨hwholeCount, hsettled, cause, rfl⟩ := hends
      rw [Lexed.length_numbered] at hcount hwholeCount
      have hline : (refusal cause (whole.numbered.drop count)).line = count + 1 :=
        Lexed.line_numbered hwholeCount hsettled
      have hfound : front.numbered.ending = .error found := by
        unfold Lexed.numbered
        rw [hending]
        rfl
      rw [hcut] at hfound
      cases hfound
      rw [if_neg (by omega)]

/-- The numbered tokens are refused as the tokens themselves are, with the same complaint about the
token of this number. -/
theorem program_of_numbered (hinput : input.Settled)
    (h : program input.numbered = .error (.grammar error)) :
    ∃ count token, error.line = count + 1 ∧ input.allTokens[count]? = some token ∧
      (∃ cause : TokenClass → SyntaxCause, error.cause = cause token.toClass) ∧
      program input = .error (.grammar ⟨error.cause, token.line⟩) := by
  have halong := program_alongside input.numbered_begins (Lexed.settled_numbered hinput)
  rw [h] at halong
  generalize program input = result at halong ⊢
  cases halong with
  | @refused count cause hcount hsettled =>
      obtain ⟨hwhole, hkind⟩ := (input.numbered_begins.drop count).front_eq hsettled
      rw [Lexed.length_numbered] at hcount
      refine ⟨count, (input.drop count).current, Lexed.line_numbered hcount hsettled,
        Lexed.allTokens_of_settled hcount hwhole, ?_, ?_⟩
      · refine ⟨cause, ?_⟩
        unfold refusal Token.toClass
        rw [hkind]
      · unfold refusal Token.toClass
        rw [hkind]

theorem numbered_of_program (hinput : input.Settled)
    (h : program input = .error (.grammar error)) :
    ∃ found, program input.numbered = .error (.grammar found) := by
  have halong := program_alongside input.numbered_begins (Lexed.settled_numbered hinput)
  rw [h] at halong
  generalize program input.numbered = result at halong ⊢
  cases halong with
  | refused => exact ⟨_, rfl⟩
  | @cut count cut _ hcut hcount hends =>
      -- The tokens have all been taken, so there is none that could be refused.
      obtain ⟨hwholeCount, hsettled, -⟩ := hends
      rw [Lexed.length_numbered] at hcount
      obtain rfl := Nat.le_antisymm hwholeCount hcount
      obtain ⟨position, hlast, -⟩ := Lexed.current_of_length hsettled
      unfold Lexed.numbered at hcut
      rw [hlast] at hcut
      cases hcut

end Parser

end Bhasha
