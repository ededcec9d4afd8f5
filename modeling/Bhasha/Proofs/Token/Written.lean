import Bhasha.Proofs.Token.Spelling

/-!
# Written tokens

Whoever writes a source text makes some choices that its tokens do not show: the digits of a
number, the quotes of a text, the blanks between two tokens, and the comment in front of a
newline.  Reading the text gives the tokens back, whatever has been chosen.
-/

namespace Bhasha

namespace Lexer

/-- What a comment says behind its sign.  It stays on its line. -/
structure Comment where
  text : List Char
  newline_not_mem : '\n' ∉ text

/-- The blanks between two tokens, of which there is at least one. -/
structure Gap where
  first : Char
  rest : List Char := []
  isBlank_first : isBlank first = true
  isBlank_rest : ∀ c ∈ rest, isBlank c = true

/-- A token as it is written, with all that its kind leaves open. -/
inductive Written where
  | number (numeral : Numeral)
  | text (quote : Quote) (value : String)
  | word (name : String) (isName_name : isName name = true)
  | keyword (reserved : Keyword)
  | symbol (mark : Symbol)
  | newline (comment : Option Comment)

namespace Written

def kind : Written → TokenKind
  | number numeral => .number numeral.value
  | text _ value => .text value
  | word name _ => .word name
  | keyword reserved => .keyword reserved
  | symbol mark => .symbol mark
  | newline _ => .newline

def chars : Written → List Char
  | number numeral => numeral.first :: numeral.tail
  | text quote value => quote.mark :: (quote.escape value.toList ++ [quote.mark])
  | word name _ => name.toList
  | keyword reserved => reserved.spelling.toList
  | symbol mark => mark.spelling.toList
  | newline none => ['\n']
  | newline (some comment) => '#' :: (comment.text ++ ['\n'])

end Written

/-- The source text of some tokens, each with the gap that parts it from the next one.  Behind the
last token there is none. -/
def source : List (Written × Gap) → List Char
  | [] => []
  | [(token, _)] => token.chars
  | (token, gap) :: next :: rest =>
      token.chars ++ (gap.first :: gap.rest ++ source (next :: rest))

variable {kinds : List TokenKind} {following : List Char}

theorem mem_spaces_of_isBlank {c : Char} (h : isBlank c = true) : c ∈ spaces := by
  simp only [isBlank, Bool.or_eq_true, beq_iff_eq] at h
  rcases h with ((rfl | rfl) | rfl) | rfl <;> decide

theorem Gap.breaks (gap : Gap) (following : List Char) :
    Breaks (gap.first :: gap.rest ++ following) :=
  .space (mem_spaces_of_isBlank gap.isBlank_first) _

theorem Writes.behind_blanks {blanks : List Char} (h : Writes kinds following)
    (hblanks : ∀ c ∈ blanks, isBlank c = true) : Writes kinds (blanks ++ following) := by
  induction blanks with
  | nil => exact h
  | cons c rest ih =>
      rw [List.forall_mem_cons] at hblanks
      exact .blank hblanks.1 (ih hblanks.2)

theorem Writes.behind_gap (h : Writes kinds following) (gap : Gap) :
    Writes kinds (gap.first :: gap.rest ++ following) :=
  h.behind_blanks (List.forall_mem_cons.mpr ⟨gap.isBlank_first, gap.isBlank_rest⟩)

theorem Writes.behind_token (h : Writes kinds following) (hbreaks : Breaks following)
    (token : Written) : Writes (token.kind :: kinds) (token.chars ++ following) := by
  cases token with
  | number numeral => exact .token (.number numeral) (.inr hbreaks) h
  | text quote value => exact .token (.text quote value) (.inr hbreaks) h
  | word name hname => exact .token (.word hname) (.inr hbreaks) h
  | keyword reserved => exact .token (.keyword reserved) (.inr hbreaks) h
  | symbol mark => exact .token (.symbol mark) (.inr hbreaks) h
  | newline comment =>
      have hnewline : Writes (.newline :: kinds) ('\n' :: following) :=
        .token .newline (.inl rfl) h
      cases comment with
      | none => exact hnewline
      | some comment =>
          have hcomment := hnewline.comment comment.newline_not_mem
          simpa [Written.kind, Written.chars] using hcomment

theorem writes_source (tokens : List (Written × Gap)) :
    Writes (tokens.map fun (token, _) => token.kind) (source tokens) := by
  induction tokens with
  | nil => exact .finish
  | cons piece rest ih =>
      obtain ⟨token, gap⟩ := piece
      cases rest with
      | nil =>
          have hlast := Writes.finish.behind_token .finish token
          rwa [List.append_nil] at hlast
      | cons next rest => exact (ih.behind_gap gap).behind_token (gap.breaks _) token

/-- Whatever tokens are written and however this is done, reading the source text gives the same
kinds with the same values in the same order, and then comes to the end of the source. -/
theorem lex_source (tokens : List (Written × Gap)) :
    ∃ found, lex (String.ofList (source tokens)) =
        ⟨found, .ok (Position.start.after (source tokens))⟩ ∧
      found.map Token.kind = tokens.map fun (token, _) => token.kind := by
  unfold lex
  rw [String.toList_ofList]
  exact (writes_source tokens).lexFrom_eq .start

end Lexer

end Bhasha
