import Bhasha.Proofs.Token.Cut
import Bhasha.Proofs.Token.Pattern

/-!
# Reading token by token

A reader of a source text returns one token for each call, with the text that it skips in front of
it.  Its calls cut the text into pieces that leave nothing out: gaps of blanks and comments, and
between them the longest texts that can be tokens.  At the end of the text every call returns the
end of the input.
-/

namespace Bhasha.Lexer

/-- What a reader knows: the position that it has come to, and the text from there on. -/
structure Reader where
  position : Position
  rest : List Char

/-- What a call of a reader finds: the text that it skips, the text of the token, and the token. -/
structure Found where
  skipped : List Char
  slice : List Char
  token : Token

/-- All that a call takes off the front of the text. -/
def Found.text (found : Found) : List Char :=
  found.skipped ++ found.slice

namespace Reader

/-- The reader of a source text. -/
def start (source : String) : Reader :=
  ⟨.start, source.toList⟩

/-- The next token, and the reader behind it.  At the end this is the end of the input. -/
def next : Reader → Except LexicalError (Found × Reader)
  | ⟨position, []⟩ => .ok (⟨[], [], ⟨.endOfInput, position⟩⟩, ⟨position, []⟩)
  | ⟨position, first :: rest⟩ =>
      match step first rest with
      | .skip extra =>
          (next ⟨position.after (first :: rest.take extra), rest.drop extra⟩).map
            fun (found, later) =>
              ({ found with skipped := first :: rest.take extra ++ found.skipped }, later)
      | .token kind extra =>
          .ok (⟨[], first :: rest.take extra, ⟨kind, position⟩⟩,
            ⟨position.after (first :: rest.take extra), rest.drop extra⟩)
      | .unknown => .error (.unknownCharacter first position)
      | .unterminated =>
          .error (.unterminatedText (position.after (first :: rest)).line position.column)
termination_by reader => reader.rest.length
decreasing_by simp only [List.length_drop, List.length_cons]; omega

/-- The tokens of the text that a reader has in front of it. -/
def lexed (reader : Reader) : Lexed :=
  lexFrom reader.position reader.rest

/-- What so many calls return, up to the first error. -/
def calls : Nat → Reader → List (Except LexicalError Found)
  | 0, _ => []
  | count + 1, reader =>
      match reader.next with
      | .ok (found, later) => .ok found :: calls count later
      | .error error => [.error error]

end Reader

/-- What may stand in front of a text between tokens: blanks, and a comment up to a newline or the
end. -/
inductive Between (following : List Char) : List Char → Prop where
  | none : Between following []
  | blank {c : Char} {text : List Char} : isBlank c = true → Between following text →
      Between following (c :: text)
  | comment {text : List Char} : '\n' ∉ text → (∀ c ∈ following.head?, c = '\n') →
      Between following ('#' :: text)

/-- What a call cuts off, in front of the text that follows: a gap, and as the token the longest
text that can be one.  Newlines stand in texts or alone, no word and no symbol is cut short, and a
word is a reserved one if it is spelled like it. -/
structure IsPiece (found : Found) (following : List Char) : Prop where
  slice_ne_nil : found.slice ≠ []
  between : Between (found.slice ++ following) found.skipped
  longest : LongestMatch found.token.kind found.slice following
  newline_skipped : '\n' ∉ found.skipped
  newline : '\n' ∈ found.slice →
    (found.token.kind = .newline ∧ found.slice = ['\n']) ∨ ∃ value, found.token.kind = .text value
  isWord_iff : IsWord found.token.kind ↔ ∀ c ∈ found.slice.head?, isWordStart c = true
  word_ends : IsWord found.token.kind → ∀ c ∈ following.head?, isWordPart c = false
  keyword_iff : IsWord found.token.kind → ∀ reserved : Keyword,
    found.token.kind = .keyword reserved ↔ found.slice = reserved.spelling.toList
  symbol_longest : ∀ mark : Symbol, mark.spelling.toList <+: found.slice ++ following →
    mark.spelling.toList.length ≤ found.slice.length

/-- A run of calls that return tokens, up to the state in which it is left. -/
inductive Reads : Reader → List Found → Reader → Prop where
  | none (reader : Reader) : Reads reader [] reader
  | token {reader later last : Reader} {found : Found} {founds : List Found} :
      reader.next = .ok (found, later) → found.token.kind ≠ .endOfInput → Reads later founds last →
      Reads reader (found :: founds) last

/-- No call returns a token any more. -/
def Reader.Ends (reader : Reader) : Prop :=
  ∀ found later, reader.next = .ok (found, later) → found.token.kind = .endOfInput

variable {reader later last : Reader} {founds : List Found} {found : Found} {error : LexicalError}
  {skipped following rest : List Char} {first : Char} {extra : Nat}

theorem Between.newline_not_mem (h : Between following skipped) : '\n' ∉ skipped := by
  induction h with
  | none => exact List.not_mem_nil
  | blank hblank _ ih =>
      intro hmem
      rcases List.mem_cons.mp hmem with rfl | hmem
      · cases hblank
      · exact ih hmem
  | comment htext _ =>
      intro hmem
      rcases List.mem_cons.mp hmem with hhash | hmem
      · cases hhash
      · exact htext hmem

theorem Between.eq_nil (h : Between following skipped)
    (hnewline : ∀ c ∈ (skipped ++ following).head?, c = '\n') : skipped = [] := by
  cases h with
  | none => rfl
  | @blank c text hblank _ =>
      rw [hnewline c rfl] at hblank
      cases hblank
  | comment _ _ => cases hnewline '#' rfl

theorem skip_cases (h : step first rest = .skip extra) :
    (isBlank first = true ∧ extra = 0) ∨
      (first = '#' ∧ extra = (rest.takeWhile (· ≠ '\n')).length) := by
  unfold step at h
  split at h
  · next hblank =>
      cases h
      exact .inl ⟨hblank, rfl⟩
  split at h
  · next hhash =>
      cases h
      exact .inr ⟨hhash, rfl⟩
  split at h
  · cases h
  split at h
  · unfold numberStep at h
    simp only at h
    split at h <;> cases h
  split at h
  · unfold wordStep at h
    simp only at h
    split at h <;> cases h
  split at h
  · unfold textStep at h
    split at h <;> cases h
  · unfold symbolStep at h
    split at h <;> cases h

/-- What a step skips is the front of a gap, and behind a comment nothing more is skipped. -/
theorem gap_of_skip (h : step first rest = .skip extra) (hgap : Between following skipped)
    (hrest : rest.drop extra = skipped ++ following) :
    Between following (first :: rest.take extra ++ skipped) := by
  rcases skip_cases h with ⟨hblank, rfl⟩ | ⟨rfl, rfl⟩
  · exact .blank hblank hgap
  · have hdropped : rest.drop (rest.takeWhile (· ≠ '\n')).length = rest.dropWhile (· ≠ '\n') := by
      have hsplit := @List.drop_left _ (rest.takeWhile (· ≠ '\n')) (rest.dropWhile (· ≠ '\n'))
      rwa [List.takeWhile_append_dropWhile] at hsplit
    have hnewline : ∀ c ∈ (skipped ++ following).head?, c = '\n' := by
      rw [← hrest, hdropped]
      intro c hc
      have hhead := List.head?_dropWhile_not (· ≠ '\n') rest
      rw [hc] at hhead
      simpa using hhead
    obtain rfl := hgap.eq_nil hnewline
    rw [take_length_takeWhile, List.append_nil]
    apply Between.comment
    · intro hmem
      have hother := List.mem_takeWhile_imp hmem
      exact of_decide_eq_true hother rfl
    · exact hnewline

/-- What a call comes to. -/
inductive Call (reader : Reader) : Except LexicalError (Found × Reader) → Prop where
  | finished : Between [] reader.rest → Call reader
      (.ok (⟨reader.rest, [], ⟨.endOfInput, reader.position.after reader.rest⟩⟩,
        ⟨reader.position.after reader.rest, []⟩))
  | token {skipped rest : List Char} {first : Char} {kind : TokenKind} {extra : Nat} :
      reader.rest = skipped ++ first :: rest → Between (first :: rest) skipped →
      step first rest = .token kind extra → Call reader
      (.ok (⟨skipped, first :: rest.take extra, ⟨kind, reader.position.after skipped⟩⟩,
        ⟨reader.position.after (skipped ++ first :: rest.take extra), rest.drop extra⟩))
  | unknown {skipped rest : List Char} {first : Char} :
      reader.rest = skipped ++ first :: rest → Between (first :: rest) skipped →
      step first rest = .unknown →
      Call reader (.error (.unknownCharacter first (reader.position.after skipped)))
  | unterminated {skipped rest : List Char} {first : Char} :
      reader.rest = skipped ++ first :: rest → Between (first :: rest) skipped →
      step first rest = .unterminated →
      Call reader (.error (.unterminatedText (reader.position.after reader.rest).line
        (reader.position.after skipped).column))

/-- A call that skips something comes to what the call behind it comes to. -/
theorem Call.behind_skip {position : Position} {result : Except LexicalError (Found × Reader)}
    (hstep : step first rest = .skip extra)
    (h : Call ⟨position.after (first :: rest.take extra), rest.drop extra⟩ result) :
    Call ⟨position, first :: rest⟩ (result.map fun (found, later) =>
      ({ found with skipped := first :: rest.take extra ++ found.skipped }, later)) := by
  have hfront : first :: rest = first :: rest.take extra ++ rest.drop extra := by
    rw [List.cons_append, List.take_append_drop]
  have hplace : ∀ text, (position.after (first :: rest.take extra)).after text =
      position.after (first :: rest.take extra ++ text) :=
    fun text => (Position.after_append position _ text).symm
  cases h with
  | finished hgap =>
      have hall : Between [] (first :: rest) := by
        rw [hfront]
        exact gap_of_skip hstep hgap (List.append_nil _).symm
      have hcall := @Call.finished ⟨position, first :: rest⟩ hall
      simp only [Except.map, hplace, ← hfront]
      exact hcall
  | @token skipped behind second kind size hrest hgap htoken =>
      have hall := gap_of_skip hstep hgap hrest
      have hcall := @Call.token ⟨position, first :: rest⟩
        (first :: rest.take extra ++ skipped) behind second kind size
        (by rw [List.append_assoc, ← hrest]; exact hfront) hall htoken
      simp only [Except.map, hplace, ← List.append_assoc]
      exact hcall
  | @unknown skipped behind second hrest hgap hunknown =>
      have hall := gap_of_skip hstep hgap hrest
      have hcall := @Call.unknown ⟨position, first :: rest⟩ (first :: rest.take extra ++ skipped)
        behind second (by rw [List.append_assoc, ← hrest]; exact hfront) hall hunknown
      simp only [Except.map, hplace]
      exact hcall
  | @unterminated skipped behind second hrest hgap hopen =>
      have hall := gap_of_skip hstep hgap hrest
      have hcall := @Call.unterminated ⟨position, first :: rest⟩
        (first :: rest.take extra ++ skipped) behind second
        (by rw [List.append_assoc, ← hrest]; exact hfront) hall hopen
      simp only [Except.map, hplace, ← hfront]
      exact hcall

theorem call_next (reader : Reader) : Call reader reader.next := by
  fun_induction Reader.next reader with
  | case1 position => exact .finished .none
  | case2 position first rest extra hstep ih => exact ih.behind_skip hstep
  | case3 position first rest kind extra hstep => exact .token rfl .none hstep
  | case4 position first rest hstep => exact .unknown rfl .none hstep
  | case5 position first rest hstep => exact .unterminated rfl .none hstep

/-- The rest follows from the longest match. -/
theorem isPiece_of_longest (hbetween : Between (found.slice ++ following) found.skipped)
    (hlongest : LongestMatch found.token.kind found.slice following) : IsPiece found following where
  slice_ne_nil := hlongest.lexeme.ne_nil
  between := hbetween
  longest := hlongest
  newline_skipped := hbetween.newline_not_mem
  newline := hlongest.lexeme.newline_alone
  isWord_iff := hlongest.lexeme.isWord_iff
  word_ends := hlongest.word_ends
  keyword_iff := hlongest.lexeme.keyword_iff
  symbol_longest := hlongest.symbol_longest

/-- The tokens of a text, as the first call gives them. -/
def lexedAfter : Except LexicalError (Found × Reader) → Lexed
  | .error error => ⟨[], .error error⟩
  | .ok (found, later) =>
      if found.token.kind = .endOfInput then ⟨[], .ok found.token.position⟩
      else ⟨found.token :: later.lexed.tokens, later.lexed.ending⟩

/-- Calling the reader finds the tokens that the lexer finds. -/
theorem lexed_eq (reader : Reader) : reader.lexed = lexedAfter reader.next := by
  fun_induction Reader.next reader with
  | case1 position =>
      unfold Reader.lexed
      rw [lexFrom]
      rfl
  | case2 position first rest extra hstep ih =>
      unfold Reader.lexed
      rw [lexFrom, hstep]
      apply Eq.trans ih
      cases Reader.next ⟨position.after (first :: rest.take extra), rest.drop extra⟩ <;> rfl
  | case3 position first rest kind extra hstep =>
      have hkind := (lexeme_of_step hstep).ne_endOfInput
      unfold Reader.lexed
      rw [lexFrom, hstep]
      exact (if_neg hkind).symm
  | case4 position first rest hstep | case5 position first rest hstep =>
      unfold Reader.lexed
      rw [lexFrom, hstep]
      rfl

theorem piece_of_next (h : reader.next = .ok (found, later))
    (hkind : found.token.kind ≠ .endOfInput) :
    reader.rest = found.text ++ later.rest ∧ IsPiece found later.rest := by
  have hcall := call_next reader
  rw [h] at hcall
  cases hcall with
  | finished _ => exact absurd rfl hkind
  | @token skipped rest first kind extra hrest hgap hstep =>
      have hbehind : first :: rest.take extra ++ rest.drop extra = first :: rest := by
        rw [List.cons_append, List.take_append_drop]
      constructor
      · rw [Found.text, List.append_assoc, hbehind]
        exact hrest
      · apply isPiece_of_longest
        · rw [hbehind]
          exact hgap
        · exact longestMatch_of_step hstep

theorem length_lt_of_next (h : reader.next = .ok (found, later))
    (hkind : found.token.kind ≠ .endOfInput) : later.rest.length < reader.rest.length := by
  obtain ⟨hrest, hpiece⟩ := piece_of_next h hkind
  have hpos := List.length_pos_iff.mpr hpiece.slice_ne_nil
  rw [hrest, Found.text, List.length_append, List.length_append]
  omega

/-- Every call that returns a token leaves less of the text, so the tokens come to an end. -/
theorem exists_reads (reader : Reader) : ∃ founds last, Reads reader founds last ∧ last.Ends := by
  by_cases hends : reader.Ends
  · exact ⟨[], reader, .none reader, hends⟩
  · unfold Reader.Ends at hends
    push Not at hends
    obtain ⟨found, later, hnext, hkind⟩ := hends
    have hlt := length_lt_of_next hnext hkind
    obtain ⟨founds, last, hreads, hlast⟩ := exists_reads later
    exact ⟨found :: founds, last, .token hnext hkind hreads, hlast⟩
termination_by reader.rest.length

theorem Reads.rest_eq (h : Reads reader founds last) :
    reader.rest = founds.flatMap Found.text ++ last.rest := by
  induction h with
  | none => rfl
  | token hnext hkind _ ih =>
      rw [(piece_of_next hnext hkind).1, ih, List.flatMap_cons, List.append_assoc]

theorem Reads.length_le (h : Reads reader founds last) :
    founds.length + last.rest.length ≤ reader.rest.length := by
  induction h with
  | none => exact Nat.le_of_eq (Nat.zero_add _)
  | token hnext hkind _ ih =>
      have hlt := length_lt_of_next hnext hkind
      rw [List.length_cons]
      omega

theorem Reads.isPiece (h : Reads reader founds last) {before after : List Found}
    (hfounds : founds = before ++ found :: after) :
    IsPiece found (after.flatMap Found.text ++ last.rest) := by
  induction h generalizing before with
  | none => exact absurd hfounds.symm (List.append_ne_nil_of_right_ne_nil _ (List.cons_ne_nil _ _))
  | token hnext hkind hreads ih =>
      cases before with
      | nil =>
          obtain ⟨rfl, rfl⟩ := List.cons.inj hfounds
          rw [← hreads.rest_eq]
          exact (piece_of_next hnext hkind).2
      | cons _ before => exact ih (List.cons.inj hfounds).2

theorem Reads.lexed_eq (h : Reads reader founds last) :
    reader.lexed = ⟨founds.map Found.token ++ last.lexed.tokens, last.lexed.ending⟩ := by
  induction h with
  | none => rfl
  | token hnext hkind _ ih =>
      rw [Lexer.lexed_eq, hnext, lexedAfter, if_neg hkind, ih]
      rfl

theorem Reads.calls (h : Reads reader founds last) (count : Nat) :
    reader.calls (founds.length + count) = founds.map .ok ++ last.calls count := by
  induction h with
  | none => rw [List.length_nil, Nat.zero_add, List.map_nil, List.nil_append]
  | token hnext hkind _ ih =>
      rw [List.length_cons, Nat.succ_add, Reader.calls, hnext, List.map_cons, List.cons_append]
      exact congrArg _ ih

/-- At its end a text has no token left, and every call returns the same end of the input. -/
theorem calls_at_end (position : Position) (count : Nat) :
    Reader.calls count ⟨position, []⟩ =
      List.replicate count (.ok ⟨[], [], ⟨.endOfInput, position⟩⟩) := by
  have hnext : Reader.next ⟨position, []⟩ =
      .ok (⟨[], [], ⟨.endOfInput, position⟩⟩, ⟨position, []⟩) := by
    rw [Reader.next]
  induction count with
  | zero => rfl
  | succ count ih =>
      rw [Reader.calls, hnext, List.replicate_succ]
      exact congrArg _ ih

/-- Nothing is skipped at the front of the text, and no pattern matches there. -/
structure Stuck (text : List Char) : Prop where
  ne_nil : text ≠ []
  not_skipped : ∀ c ∈ text.head?, isBlank c = false ∧ c ≠ '#'
  not_lexeme : ∀ kind lexeme, Lexeme kind lexeme → ¬lexeme <+: text

theorem stuck_of_step (hskip : ∀ extra, step first rest ≠ .skip extra)
    (htoken : ∀ kind extra, step first rest ≠ .token kind extra) : Stuck (first :: rest) := by
  refine ⟨List.cons_ne_nil _ _, fun c hc => ?_, fun kind lexeme => not_lexeme_of_step htoken⟩
  obtain rfl := Option.some.inj hc
  constructor
  · apply Bool.eq_false_iff.mpr
    intro hblank
    exact hskip 0 (if_pos hblank)
  · rintro rfl
    exact hskip _ rfl

/-- How reading ends behind the last token: with a gap up to the end of the text, or with an error
where no pattern matches. -/
theorem Reader.Ends.ending (h : last.Ends) :
    ∃ gap unread, last.rest = gap ++ unread ∧ Between unread gap ∧ last.lexed.tokens = [] ∧
      match last.lexed.ending with
      | .ok position => unread = [] ∧ ∀ more, last.calls (more + 1) =
          .ok ⟨gap, [], ⟨.endOfInput, position⟩⟩ ::
            List.replicate more (.ok ⟨[], [], ⟨.endOfInput, position⟩⟩)
      | .error error => Stuck unread ∧ ∀ more, last.calls (more + 1) = [.error error] := by
  have hcall := call_next last
  have hlexed := lexed_eq last
  cases hnext : last.next with
  | ok result =>
      obtain ⟨found, later⟩ := result
      have hkind := h found later hnext
      rw [hnext] at hcall hlexed
      rw [lexedAfter, if_pos hkind] at hlexed
      cases hcall with
      | finished hgap =>
          refine ⟨last.rest, [], (List.append_nil _).symm, hgap, by rw [hlexed], ?_⟩
          rw [hlexed]
          refine ⟨rfl, fun more => ?_⟩
          rw [Reader.calls, hnext]
          exact congrArg _ (calls_at_end _ more)
      | token hrest hgap hstep => exact absurd hkind (lexeme_of_step hstep).ne_endOfInput
  | error error =>
      rw [hnext] at hcall hlexed
      have hcalls : ∀ more, last.calls (more + 1) = [.error error] := by
        intro more
        rw [Reader.calls, hnext]
      have hstuck : ∃ gap unread,
          last.rest = gap ++ unread ∧ Between unread gap ∧ Stuck unread := by
        cases hcall with
        | unknown hrest hgap hstep =>
            exact ⟨_, _, hrest, hgap, stuck_of_step (by simp [hstep]) (by simp [hstep])⟩
        | unterminated hrest hgap hstep =>
            exact ⟨_, _, hrest, hgap, stuck_of_step (by simp [hstep]) (by simp [hstep])⟩
      obtain ⟨gap, unread, hrest, hgap, hunread⟩ := hstuck
      refine ⟨gap, unread, hrest, hgap, by rw [hlexed]; rfl, ?_⟩
      rw [hlexed]
      exact ⟨hunread, hcalls⟩

/-- The calls of a reader cut a source text into pieces that leave nothing out, with one token each,
which are those that the lexer finds.  Behind the last piece the text ends, and every call returns
the same end of the input, or no pattern matches, and there is an error. -/
theorem source_partition (source : String) :
    ∃ founds gap unread,
      source.toList = founds.flatMap Found.text ++ (gap ++ unread) ∧
      founds.length ≤ source.toList.length ∧
      founds.map Found.token = (lex source).tokens ∧
      (∀ before found after, founds = before ++ found :: after →
        IsPiece found (after.flatMap Found.text ++ (gap ++ unread))) ∧
      Between unread gap ∧ '\n' ∉ gap ∧
      match (lex source).ending with
      | .ok position => unread = [] ∧
          ∀ more, (Reader.start source).calls (founds.length + (more + 1)) =
            founds.map .ok ++ .ok ⟨gap, [], ⟨.endOfInput, position⟩⟩ ::
              List.replicate more (.ok ⟨[], [], ⟨.endOfInput, position⟩⟩)
      | .error error => Stuck unread ∧
          ∀ more, (Reader.start source).calls (founds.length + (more + 1)) =
            founds.map .ok ++ [.error error] := by
  obtain ⟨founds, last, hreads, hends⟩ := exists_reads (Reader.start source)
  obtain ⟨gap, unread, hrest, hgap, htokens, hending⟩ := hends.ending
  have hlexed : lex source = ⟨founds.map Found.token ++ last.lexed.tokens, last.lexed.ending⟩ :=
    hreads.lexed_eq
  rw [htokens, List.append_nil] at hlexed
  refine ⟨founds, gap, unread, ?_, ?_, ?_, ?_, hgap, hgap.newline_not_mem, ?_⟩
  · rw [← hrest]
    exact hreads.rest_eq
  · have hle := hreads.length_le
    exact Nat.le_trans (Nat.le_add_right _ _) hle
  · rw [hlexed]
  · intro before found after hfounds
    rw [← hrest]
    exact hreads.isPiece hfounds
  · rw [hlexed]
    cases hfinal : last.lexed.ending with
    | ok position =>
        rw [hfinal] at hending
        refine ⟨hending.1, fun more => ?_⟩
        rw [hreads.calls, hending.2]
    | error error =>
        rw [hfinal] at hending
        refine ⟨hending.1, fun more => ?_⟩
        rw [hreads.calls, hending.2]

end Bhasha.Lexer
