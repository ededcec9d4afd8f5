import Bhasha.Proofs.Parser.Acceptance
import Bhasha.Proofs.Parser.Rejected
import Bhasha.Proofs.Token.Cut

/-!
# The first error

Nothing behind the token that is rejected is looked at: the error is the same whatever comes there,
even if it is not made of tokens.  If the source text stops being made of tokens in front of this
token, the lexical error comes first.
-/

namespace Bhasha

namespace Lexed

variable {input other : Lexed} {count : Nat}

/-- The first tokens, and behind them a lexical error unless they are all that there is. -/
def upTo (input : Lexed) (count : Nat) (found : LexicalError) : Lexed where
  tokens := input.tokens.take count
  ending := if input.tokens.length < count then input.ending else .error found

theorem upTo_begins (input : Lexed) (count : Nat) (found : LexicalError) :
    (input.upTo count found).Begins input where
  kinds := (List.take_prefix count input.tokens).map Token.kind
  all position hending := by
    unfold upTo at hending ⊢
    split at hending
    · rw [List.take_of_length_le (by omega)]
      exact ⟨rfl, position, hending⟩
    · cases hending

/-- The first tokens have the same kinds, payloads and lines. -/
def Agree (count : Nat) (input other : Lexed) : Prop :=
  (other.allTokens.take count).map (fun token => (token.kind, token.line)) =
    (input.allTokens.take count).map fun token => (token.kind, token.line)

theorem Agree.getElem? {token : Token} {index : Nat} (h : Agree count input other)
    (hindex : index < count) (htoken : input.allTokens[index]? = some token) :
    ∃ fellow, other.allTokens[index]? = some fellow ∧ fellow.kind = token.kind ∧
      fellow.line = token.line := by
  have hsame := congrArg (fun seen => seen[index]?) h
  simp only [List.getElem?_map, List.getElem?_take_of_lt hindex, htoken, Option.map_some,
    Option.map_eq_some_iff, Prod.mk.injEq] at hsame
  exact hsame

theorem getElem?_allTokens {token : Token} {index : Nat}
    (h : input.allTokens[index]? = some token) :
    input.tokens[index]? = some token ∨ index = input.tokens.length ∧ token.kind = .endOfInput ∧
      ∃ position, input.ending = .ok position := by
  unfold allTokens at h
  cases hending : input.ending with
  | error error =>
      rw [hending] at h
      exact .inl h
  | ok position =>
      rw [hending] at h
      simp only at h
      rcases Nat.lt_trichotomy index input.tokens.length with hlt | heq | hgt
      · rw [List.getElem?_append_left hlt] at h
        exact .inl h
      · subst heq
        rw [List.getElem?_append_right (Nat.le_refl _), Nat.sub_self] at h
        cases h
        exact .inr ⟨rfl, rfl, position, rfl⟩
      · rw [List.getElem?_eq_none (by rw [List.length_append, List.length_singleton]; omega)] at h
        cases h

theorem Agree.upTo_begins (h : Agree count input other) (found : LexicalError)
    (hinput : ∀ token ∈ input.tokens, token.kind ≠ .endOfInput)
    (hother : ∀ token ∈ other.tokens, token.kind ≠ .endOfInput) :
    (input.upTo count found).Begins other where
  kinds := by
    rw [List.prefix_iff_getElem?]
    intro index hindex
    simp only [upTo, List.length_map, List.length_take] at hindex
    have hlength : index < input.tokens.length := by omega
    have htoken : input.allTokens[index]? = some input.tokens[index] := by
      unfold allTokens
      cases input.ending <;> simp [List.getElem?_append_left hlength]
    obtain ⟨fellow, hfellow, hkind, -⟩ := h.getElem? (by omega) htoken
    rcases getElem?_allTokens hfellow with hfellow | ⟨-, hend, -⟩
    · simp [upTo, hfellow, hkind]
    · rw [hend] at hkind
      exact absurd hkind.symm (hinput _ (List.getElem_mem hlength))
  all position hending := by
    unfold upTo at hending ⊢
    split at hending
    · next hcount =>
        have htoken : input.allTokens[input.tokens.length]? = some ⟨.endOfInput, position⟩ := by
          unfold allTokens
          rw [hending]
          simp
        obtain ⟨fellow, hfellow, hkind, -⟩ := h.getElem? hcount htoken
        rcases getElem?_allTokens hfellow with hfellow | ⟨hlength, -, hlast⟩
        · exact absurd hkind (hother fellow (List.mem_of_getElem? hfellow))
        · rw [List.take_of_length_le (by omega)]
          exact ⟨hlength.symm, hlast⟩
    · cases hending

end Lexed

namespace Program

variable {input front whole : Lexed} {error : SyntaxError} {number : Nat}

theorem ofTokens_of_error {found : ParseError} (hinput : input.Settled)
    (h : Parser.program input = .error found) : ofTokens input = .error found := by
  unfold ofTokens
  rw [show input.settle = .ok input from hinput]
  change (Parser.program input >>= fun read => Except.ok read.1) = _
  rw [h]
  rfl

theorem error_of_ofTokens {found : ParseError} (hinput : input.Settled)
    (h : ofTokens input = .error found) : Parser.program input = .error found := by
  unfold ofTokens at h
  rw [show input.settle = .ok input from hinput] at h
  change (Parser.program input >>= fun read => Except.ok read.1) = _ at h
  cases hread : Parser.program input with
  | ok read =>
      rw [hread] at h
      cases h
  | error last =>
      rw [hread] at h
      cases h
      rfl

theorem ofTokens_cut (found : LexicalError) : ofTokens ⟨[], .error found⟩ = .error (.lexical found) :=
  rfl

theorem settled_of_ofTokens (h : ofTokens input = .error (.grammar error)) : input.Settled := by
  rcases input.settled_or_cut with hinput | ⟨found, rfl⟩
  · exact hinput
  · cases h

theorem rejected?_eq_some (hinput : input.Settled) :
    rejected? input = some number ↔
      ∃ error, error.line = number ∧ Parser.program input.numbered = .error (.grammar error) := by
  have hnumbered := Lexed.settled_numbered hinput
  unfold rejected?
  constructor
  · intro h
    split at h
    · next error herror =>
        cases h
        exact ⟨error, rfl, error_of_ofTokens hnumbered herror⟩
    · cases h
  · rintro ⟨error, rfl, h⟩
    rw [ofTokens_of_error hnumbered h]

theorem exists_rejected (h : ofTokens input = .error (.grammar error)) :
    ∃ count token, rejected? input = some (count + 1) ∧
      input.allTokens[count]? = some token ∧
      ∃ cause : TokenClass → SyntaxCause, error = ⟨cause token.toClass, token.line⟩ := by
  have hinput := settled_of_ofTokens h
  have hrefused := error_of_ofTokens hinput h
  obtain ⟨numbered, hnumbered⟩ := Parser.numbered_of_program hinput hrefused
  obtain ⟨count, token, hline, htoken, ⟨cause, hcause⟩, hprogram⟩ :=
    Parser.program_of_numbered hinput hnumbered
  rw [hrefused] at hprogram
  cases hprogram
  refine ⟨count, token, ?_, htoken, cause, ?_⟩
  · rw [rejected?_eq_some hinput]
    exact ⟨numbered, hline, hnumbered⟩
  · rw [hcause]

theorem settled_upTo (hinput : input.Settled) (found : LexicalError) (hnumber : 0 < number) :
    (input.upTo number found).Settled := by
  obtain ⟨tokens, ending⟩ := input
  cases tokens with
  | cons token rest =>
      cases number with
      | zero => cases hnumber
      | succ count => rfl
  | nil =>
      unfold Lexed.upTo
      rw [if_pos (by simpa using hnumber), List.take_nil]
      exact hinput

/-- The tokens up to the one that is rejected are refused in the same way. -/
theorem program_upTo (hinput : input.Settled) (found : LexicalError)
    (h : Parser.program input.numbered = .error (.grammar error)) :
    Parser.program (input.upTo error.line found).numbered = .error (.grammar error) := by
  obtain ⟨count, token, hline, htoken, -⟩ := Parser.program_of_numbered hinput h
  by_cases hall : input.tokens.length < error.line
  · have hsame : input.upTo error.line found = input := by
      unfold Lexed.upTo
      rw [if_pos hall, List.take_of_length_le (by omega)]
    rwa [hsame]
  · have hending : (input.upTo error.line found).ending = .error found := if_neg hall
    have hlength : (input.upTo error.line found).tokens.length = error.line := by
      unfold Lexed.upTo
      rw [List.length_take]
      omega
    have hcut := Parser.program_of_whole (input.upTo_begins error.line found)
      (settled_upTo hinput found (by omega)) hending h
    rwa [if_pos (by omega)] at hcut

/-- Tokens that agree up to the one that is rejected are refused with the same error. -/
theorem ofTokens_of_agree {other : Lexed} (h : ofTokens input = .error (.grammar error))
    (hnumber : rejected? input = some number) (hagree : input.Agree number other)
    (htokens : ∀ token ∈ input.tokens, token.kind ≠ .endOfInput)
    (hothers : ∀ token ∈ other.tokens, token.kind ≠ .endOfInput) :
    ofTokens other = .error (.grammar error) := by
  have hinput := settled_of_ofTokens h
  obtain ⟨refused, rfl, hrefused⟩ := (rejected?_eq_some hinput).mp hnumber
  have hbegins := hagree.upTo_begins (.unterminatedText 0 0) htokens hothers
  obtain ⟨count, token, hline, htoken, -, hprogram⟩ :=
    Parser.program_of_numbered hinput hrefused
  have hpositive : 0 < refused.line := by omega
  have hfront := settled_upTo hinput (.unterminatedText 0 0) hpositive
  have hother := (hbegins.front_eq hfront).1
  have hothers := Parser.program_of_begins hbegins hfront (program_upTo hinput _ hrefused)
  obtain ⟨same, fellow, hsame, hfellow, -, hrefusal⟩ := Parser.program_of_numbered hother hothers
  obtain rfl : same = count := by omega
  have hbefore : same < refused.line := by omega
  obtain ⟨_, hat, -, hlines⟩ := hagree.getElem? hbefore htoken
  rw [hfellow] at hat
  cases hat
  rw [error_of_ofTokens hinput h] at hprogram
  cases hprogram
  rw [← hlines]
  exact ofTokens_of_error hother hrefusal

/-- Tokens that have a lexical error behind them, with which their numbered copies end, end with it
themselves. -/
theorem lexical_of_numbered {found : LexicalError} (hinput : input.Settled)
    (hending : input.ending = .error found) {last : LexicalError}
    (h : Parser.program input.numbered = .error (.lexical last)) :
    ofTokens input = .error (.lexical found) := by
  have halong := Parser.program_alongside input.numbered_begins (Lexed.settled_numbered hinput)
  rw [h] at halong
  apply ofTokens_of_error hinput
  generalize Parser.program input = result at halong ⊢
  cases halong with
  | @cut count _ _ _ hcount hends =>
      rw [Lexed.length_numbered] at hcount
      have hnever : count ≤ input.tokens.length → ¬(input.drop count).Settled := by
        intro hle hsettled
        obtain rfl := Nat.le_antisymm hle hcount
        obtain ⟨position, hlast, -⟩ := Lexed.current_of_length hsettled
        rw [hending] at hlast
        cases hlast
      cases result with
      | ok read => exact absurd (hends.2.1 ▸ hends.2.2) (hnever hends.1)
      | error error =>
          cases error with
          | grammar error => exact absurd hends.2.1 (hnever hends.1)
          | lexical error =>
              have herror := hends.2
              rw [hending] at herror
              cases herror
              rfl

/-- Cut off in front of the token that is rejected, the input ends with the lexical error there. -/
theorem ofTokens_take (h : ofTokens input = .error (.grammar error))
    (hnumber : rejected? input = some number)
    (htokens : ∀ token ∈ input.tokens, token.kind ≠ .endOfInput) (found : LexicalError)
    {count : Nat} (hcount : count ≤ input.tokens.length) :
    ofTokens ⟨input.tokens.take count, .error found⟩ =
      .error (if number ≤ count then .grammar error else .lexical found) := by
  have hupTo : input.upTo count found = ⟨input.tokens.take count, .error found⟩ := by
    unfold Lexed.upTo
    rw [if_neg (by omega)]
  have hlength : (input.upTo count found).tokens.length = count := by
    rw [hupTo]
    exact List.length_take_of_le hcount
  have hinput := settled_of_ofTokens h
  obtain ⟨refused, rfl, hrefused⟩ := (rejected?_eq_some hinput).mp hnumber
  obtain ⟨before, token, hline, -⟩ := Parser.program_of_numbered hinput hrefused
  rw [← hupTo]
  rcases Nat.eq_zero_or_pos count with rfl | hpositive
  · rw [if_neg (by omega), hupTo]
    exact ofTokens_cut found
  have hfront := settled_upTo hinput found hpositive
  have hending : (input.upTo count found).ending = .error found := by rw [hupTo]
  have hcut := Parser.program_of_whole (input.upTo_begins count found) hfront hending hrefused
  rw [hlength] at hcut
  split at hcut
  · next hle =>
      rw [if_pos hle]
      apply ofTokens_of_agree h hnumber _ htokens
      · intro token htoken
        exact htokens token (List.mem_of_mem_take htoken)
      · have hall : ∀ ending : Except LexicalError Position,
            (Lexed.mk input.tokens ending).allTokens.take refused.line =
              input.tokens.take refused.line := by
          intro ending
          unfold Lexed.allTokens
          cases ending with
          | ok position => exact List.take_append_of_le_length (Nat.le_trans hle hcount)
          | error error => rfl
        have hcutOff : (input.upTo count found).allTokens.take refused.line =
            input.tokens.take refused.line := by
          rw [hupTo]
          exact (List.take_take ..).trans (by rw [Nat.min_eq_left hle])
        unfold Lexed.Agree
        rw [hcutOff, ← hall input.ending]
  · next hle =>
      rw [if_neg hle]
      exact lexical_of_numbered hfront hending hcut

theorem refused_of_ending {found : LexicalError} (hending : input.ending = .error found)
    (htokens : ∀ token ∈ input.tokens, token.kind ≠ .endOfInput) :
    ofTokens input = .error (.lexical found) ∨
      ∃ error, ofTokens input = .error (.grammar error) := by
  rcases input.settled_or_cut with hinput | ⟨last, rfl⟩
  · obtain ⟨count, hends⟩ := Parser.composed_program.exists_endsAfter hinput
    cases hresult : Parser.program input with
    | ok read =>
        obtain ⟨position, hlast⟩ := Parser.ending_of_program hresult hinput htokens
        rw [hending] at hlast
        cases hlast
    | error error =>
        rw [ofTokens_of_error hinput hresult]
        rw [hresult] at hends
        cases error with
        | grammar error => exact .inr ⟨error, rfl⟩
        | lexical error =>
            have hlast := hends.2
            rw [hending] at hlast
            cases hlast
            exact .inl rfl
  · cases hending
    exact .inl rfl

/-- The lexical error is reported exactly if, whatever comes in its place, no token in front of it
is rejected. -/
theorem lexical_iff_rejected {tokens later : List Token} {found : LexicalError}
    {ending : Except LexicalError Position}
    (htokens : ∀ token ∈ tokens, token.kind ≠ .endOfInput) :
    ofTokens ⟨tokens, .error found⟩ = .error (.lexical found) ↔
      tokens = [] ∨ ∀ number, rejected? ⟨tokens ++ later, ending⟩ = some number →
        tokens.length < number := by
  have hbegins : Lexed.Begins ⟨tokens, .error found⟩ ⟨tokens ++ later, ending⟩ :=
    ⟨List.IsPrefix.map Token.kind (List.prefix_append _ _), nofun⟩
  rcases (Lexed.settled_or_cut ⟨tokens, .error found⟩).symm with ⟨last, hcut⟩ | hfront
  · cases hcut
    exact ⟨fun _ => .inl rfl, fun _ => ofTokens_cut found⟩
  have hwhole := (hbegins.front_eq hfront).1
  constructor
  · intro h
    right
    intro number hnumber
    obtain ⟨refused, rfl, hrefused⟩ := (rejected?_eq_some hwhole).mp hnumber
    have hcut := Parser.program_of_whole hbegins hfront rfl hrefused
    split at hcut
    · obtain ⟨_, _, -, -, -, hprogram⟩ := Parser.program_of_numbered hfront hcut
      rw [error_of_ofTokens hfront h] at hprogram
      cases hprogram
    · next hlength => exact Nat.lt_of_not_le hlength
  · rintro (rfl | h)
    · exact ofTokens_cut found
    have hrefusal : ofTokens ⟨tokens, .error found⟩ = .error (.lexical found) ∨
        ∃ error, ofTokens ⟨tokens, .error found⟩ = .error (.grammar error) :=
      refused_of_ending rfl htokens
    rcases hrefusal with hlexical | ⟨error, hrefused⟩
    · exact hlexical
    · obtain ⟨count, token, hnumber, htoken, -⟩ := exists_rejected hrefused
      obtain ⟨refused, hline, hprogram⟩ := (rejected?_eq_some hfront).mp hnumber
      have hlength : tokens.length < count + 1 :=
        h _ ((rejected?_eq_some hwhole).mpr
          ⟨refused, hline, Parser.program_of_begins hbegins hfront hprogram⟩)
      have hlt : count < tokens.length := (List.getElem?_eq_some_iff.mp htoken).1
      omega

/-- The first error wins.  Refusing a token depends on the tokens up to it, and on all of them, and
a lexical error is reported when the last token in front of it has been taken. -/
theorem first_error_wins (source : String) :
    (∀ error, parse source = .error (.grammar error) →
      ∃ number token, rejected? (Lexer.lex source) = some number ∧ 0 < number ∧
        (Lexer.lex source).allTokens[number - 1]? = some token ∧
        (∃ cause : TokenClass → SyntaxCause, error = ⟨cause token.toClass, token.line⟩) ∧
        (∀ other, (Lexer.lex source).Agree number (Lexer.lex other) →
          parse other = .error (.grammar error)) ∧
        ∀ count ≤ (Lexer.lex source).tokens.length, ∀ found,
          ofTokens ⟨(Lexer.lex source).tokens.take count, .error found⟩ =
            .error (if number ≤ count then .grammar error else .lexical found)) ∧
    ∀ tokens found, Lexer.lex source = ⟨tokens, .error found⟩ →
      (parse source = .error (.lexical found) ∨
        ∃ error number token, parse source = .error (.grammar error) ∧
          rejected? (Lexer.lex source) = some number ∧ 0 < number ∧ number ≤ tokens.length ∧
          tokens[number - 1]? = some token ∧ error.line = token.line) ∧
      ∀ later ending,
        (parse source = .error (.lexical found) ↔
          tokens = [] ∨ ∀ number, rejected? ⟨tokens ++ later, ending⟩ = some number →
            tokens.length < number) := by
  have hends : ∀ source, ∀ token ∈ (Lexer.lex source).tokens, token.kind ≠ .endOfInput := by
    intro source
    exact Lexer.kind_ne_endOfInput_of_mem_lexFrom .start source.toList
  have hparse : ∀ source, parse source = ofTokens (Lexer.lex source) := by
    intro source
    rfl
  constructor
  · intro error h
    rw [hparse] at h
    obtain ⟨count, token, hnumber, htoken, hcause⟩ := exists_rejected h
    refine ⟨count + 1, token, hnumber, Nat.succ_pos _, htoken, hcause, ?_, ?_⟩
    · intro other hagree
      rw [hparse]
      exact ofTokens_of_agree h hnumber hagree (hends source) (hends other)
    · intro cut hcut found
      exact ofTokens_take h hnumber (hends source) found hcut
  · intro tokens found hlex
    have htokens := hends source
    rw [hparse, hlex]
    rw [hlex] at htokens
    constructor
    · have hrefusal : ofTokens ⟨tokens, .error found⟩ = .error (.lexical found) ∨
          ∃ error, ofTokens ⟨tokens, .error found⟩ = .error (.grammar error) :=
        refused_of_ending rfl htokens
      rcases hrefusal with hlexical | ⟨error, h⟩
      · exact .inl hlexical
      · obtain ⟨count, token, hnumber, htoken, cause, rfl⟩ := exists_rejected h
        have hlt : count < tokens.length := (List.getElem?_eq_some_iff.mp htoken).1
        exact .inr ⟨_, count + 1, token, h, hnumber, Nat.succ_pos _, hlt, htoken, rfl⟩
    · intro later ending
      exact lexical_iff_rejected htokens

theorem first_error_wins_open_text :
    parse "x ] y" = .error (.grammar ⟨.unexpectedAfterWord (.symbol .rightBracket), 1⟩) ∧
      parse "x ] 'y" = .error (.grammar ⟨.unexpectedAfterWord (.symbol .rightBracket), 1⟩) ∧
      parse "x 'y" = .error (.lexical (.unterminatedText 1 3)) := by
  have hlex : Lexer.lex "x ] y" =
      ⟨[⟨.word "x", ⟨1, 1⟩⟩, ⟨.symbol .rightBracket, ⟨1, 3⟩⟩, ⟨.word "y", ⟨1, 5⟩⟩],
        .ok ⟨1, 6⟩⟩ :=
    Lexed.eq_of_tokens (by decide +kernel) (by decide +kernel)
  have hopen : Lexer.lex "x ] 'y" =
      ⟨[⟨.word "x", ⟨1, 1⟩⟩, ⟨.symbol .rightBracket, ⟨1, 3⟩⟩],
        .error (.unterminatedText 1 5)⟩ :=
    Lexed.eq_of_error (by decide +kernel) (by decide +kernel)
  have hshort : Lexer.lex "x 'y" = ⟨[⟨.word "x", ⟨1, 1⟩⟩], .error (.unterminatedText 1 3)⟩ :=
    Lexed.eq_of_error (by decide +kernel) (by decide +kernel)
  have hparse : parse "x ] y" =
      .error (.grammar ⟨.unexpectedAfterWord (.symbol .rightBracket), 1⟩) := by
    unfold parse Parser.readFront
    rw [hlex]
    rfl
  refine ⟨hparse, ?_, ?_⟩
  · obtain ⟨number, token, hnumber, -, -, -, hsame, -⟩ := (first_error_wins "x ] y").1 _ hparse
    rw [hlex] at hnumber
    cases hnumber
    apply hsame
    rw [hlex, hopen]
    rfl
  · have hlexical := ((first_error_wins "x 'y").2 _ _ hshort).2 [] (.ok ⟨1, 3⟩)
    apply hlexical.mpr
    right
    intro number hnumber
    cases hnumber
    decide

end Program

end Bhasha
