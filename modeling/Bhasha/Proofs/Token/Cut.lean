import Bhasha.Token.Lexer
import Mathlib.Data.List.Induction

/-!
# Cutting a source text into tokens

A source text is cut from left to right, and what is cut off at a place depends on the rest of
the text alone.  So the cuts can be described by offsets, without any position, and the lexer is
compared with this description.  It counts lines and columns as it goes along, and its count at
an offset is the one that is read off the text in front of the offset.
-/

namespace Bhasha

namespace Position

/-- The position of an offset of a text: lines are counted by the newlines in front of it, and
columns by the characters behind the last of them. -/
def ofOffset (text : List Char) (offset : Nat) : Position where
  line := 1 + (text.take offset).count '\n'
  column := 1 + ((text.take offset).reverse.takeWhile (· ≠ '\n')).length

theorem start_after (text : List Char) :
    start.after text =
      ⟨1 + text.count '\n', 1 + (text.reverse.takeWhile (· ≠ '\n')).length⟩ := by
  -- The text is built from the left, as the position moves on over its last character.
  induction text using List.reverseRecOn with
  | nil => rfl
  | append_singleton text c ih =>
      have hlast : start.after (text ++ [c]) = (start.after text).next c := by
        rw [after_append]
        rfl
      rw [hlast, ih]
      by_cases hc : c = '\n'
      · subst hc
        simp [next, Nat.add_assoc]
      · simp [next, hc]
        omega

theorem start_after_take (text : List Char) (offset : Nat) :
    start.after (text.take offset) = ofOffset text offset :=
  start_after (text.take offset)

/-- Moving on from an offset over the text behind it. -/
theorem ofOffset_after (text : List Char) (offset size : Nat) :
    (ofOffset text offset).after ((text.drop offset).take size) =
      ofOffset text (offset + size) := by
  rw [← start_after_take, ← after_append, ← List.take_add, start_after_take]

end Position

/-- A source text that is made of tokens, with the position at which it ends. -/
theorem Lexed.eq_of_tokens {lexed : Lexed} {tokens : List Token} {last : Position}
    (htokens : lexed.tokens = tokens) (hending : lexed.ending.toOption = some last) :
    lexed = ⟨tokens, .ok last⟩ := by
  obtain ⟨found, ending⟩ := lexed
  cases ending with
  | error error => cases hending
  | ok position =>
      cases hending
      rw [← htokens]

/-- The error in which the tokens end. -/
def Lexed.error? (lexed : Lexed) : Option LexicalError :=
  match lexed.ending with
  | .ok _ => none
  | .error error => some error

theorem Lexed.eq_of_error {lexed : Lexed} {tokens : List Token} {error : LexicalError}
    (htokens : lexed.tokens = tokens) (hending : lexed.error? = some error) :
    lexed = ⟨tokens, .error error⟩ := by
  obtain ⟨found, ending⟩ := lexed
  cases ending with
  | error last =>
      cases hending
      rw [← htokens]
  | ok position => cases hending

namespace Lexer

/-- How the cutting of a text comes to its end. -/
inductive Ending where
  | finished
  /-- No token starts with the character at the offset. -/
  | unknown (found : Char) (offset : Nat)
  /-- The quote at the offset is not closed. -/
  | unterminated (offset : Nat)

/-- The tokens of a source text from an offset on, each with the offset of its first character,
and the ending that they lead to. -/
inductive Cut (source : List Char) : Nat → List (TokenKind × Nat) → Ending → Prop where
  | finished : Cut source source.length [] .finished
  | unknown {offset : Nat} {first : Char} {rest : List Char} :
      source.drop offset = first :: rest → step first rest = .unknown →
      Cut source offset [] (.unknown first offset)
  | unterminated {offset : Nat} {first : Char} {rest : List Char} :
      source.drop offset = first :: rest → step first rest = .unterminated →
      Cut source offset [] (.unterminated offset)
  | skip {offset extra : Nat} {first : Char} {rest : List Char} {found : List (TokenKind × Nat)}
      {ending : Ending} :
      source.drop offset = first :: rest → step first rest = .skip extra →
      Cut source (offset + (extra + 1)) found ending → Cut source offset found ending
  | token {offset extra : Nat} {first : Char} {rest : List Char} {kind : TokenKind}
      {found : List (TokenKind × Nat)} {ending : Ending} :
      source.drop offset = first :: rest → step first rest = .token kind extra →
      Cut source (offset + (extra + 1)) found ending →
      Cut source offset ((kind, offset) :: found) ending

/-- A token at the position of its offset. -/
def placed (source : List Char) (found : TokenKind × Nat) : Token :=
  ⟨found.1, .ofOffset source found.2⟩

/-- What is reported at an ending: the position of the end of the source, or an error.  A text
that is not closed is reported in the column of its quote and on the last line of the source. -/
def Ending.report (source : List Char) : Ending → Except LexicalError Position
  | finished => .ok (.ofOffset source source.length)
  | unknown found offset => .error (.unknownCharacter found (.ofOffset source offset))
  | unterminated offset =>
      .error (.unterminatedText (1 + source.count '\n') (Position.ofOffset source offset).column)

/-- The number of characters that a step takes after the first. -/
def Step.extra : Step → Nat
  | skip extra | token _ extra => extra
  | unknown | unterminated => 0

theorem closeText?_size_le {quote : Char} {text value : List Char} {size : Nat}
    (h : closeText? quote text = some (value, size)) : size ≤ text.length := by
  fun_induction closeText? quote text generalizing value size with
  | case1 => cases h
  | case2 rest =>
      cases h
      simp
  | case3 => cases h
  | case4 escaped rest _ ih =>
      obtain ⟨inner, hinner, hresult⟩ := Option.map_eq_some_iff.mp h
      have hle := ih hinner
      cases hresult
      simp only [List.length_cons]
      omega
  | case5 c rest _ _ ih =>
      obtain ⟨inner, hinner, hresult⟩ := Option.map_eq_some_iff.mp h
      have hle := ih hinner
      cases hresult
      simp only [List.length_cons]
      omega

theorem numberStep_extra_le (first : Char) (rest : List Char) :
    (numberStep first rest).extra ≤ rest.length := by
  have hsplit : (rest.takeWhile Char.isDigit).length + (rest.dropWhile Char.isDigit).length =
      rest.length := by
    rw [← List.length_append, List.takeWhile_append_dropWhile]
  unfold numberStep
  simp only
  split
  next afterPoint hafter =>
    have hfraction : (afterPoint.takeWhile Char.isDigit).length ≤ afterPoint.length :=
      List.takeWhile_prefix _ |>.length_le
    rw [hafter, List.length_cons] at hsplit
    simp only [Step.extra]
    omega
  next =>
    simp only [Step.extra]
    omega

theorem wordStep_extra_le (first : Char) (rest : List Char) :
    (wordStep first rest).extra ≤ rest.length := by
  have htail : (rest.takeWhile isWordPart).length ≤ rest.length :=
    (List.takeWhile_prefix _).length_le
  unfold wordStep
  simp only
  split <;> exact htail

theorem textStep_extra_le (quote : Char) (rest : List Char) :
    (textStep quote rest).extra ≤ rest.length := by
  unfold textStep
  split
  next value size hclose => exact closeText?_size_le hclose
  next => exact Nat.zero_le _

theorem symbolStep_extra_le (first : Char) (rest : List Char) :
    (symbolStep first rest).extra ≤ rest.length := by
  unfold symbolStep
  split <;> simp [Step.extra]

/-- A step takes no more than there is. -/
theorem step_extra_le (first : Char) (rest : List Char) :
    (step first rest).extra ≤ rest.length := by
  unfold step
  split
  · exact Nat.zero_le _
  split
  · exact (List.takeWhile_prefix _).length_le
  split
  · exact Nat.zero_le _
  split
  · exact numberStep_extra_le first rest
  split
  · exact wordStep_extra_le first rest
  split
  · exact textStep_extra_le first rest
  · exact symbolStep_extra_le first rest

/-- The place behind a step lies in the source. -/
theorem offset_behind_step_le {source rest : List Char} {first : Char} {offset extra : Nat}
    (hdrop : source.drop offset = first :: rest) (hextra : extra ≤ rest.length) :
    offset + (extra + 1) ≤ source.length := by
  have hlength := congrArg List.length hdrop
  simp only [List.length_drop, List.length_cons] at hlength
  omega

/-- Every text can be cut. -/
theorem exists_cut (source : List Char) (offset : Nat) (hoffset : offset ≤ source.length) :
    ∃ found ending, Cut source offset found ending := by
  cases hdrop : source.drop offset with
  | nil =>
      have hend : offset = source.length := by
        have hlength := List.drop_eq_nil_iff.mp hdrop
        omega
      exact ⟨[], .finished, hend ▸ .finished⟩
  | cons first rest =>
      have hextra := step_extra_le first rest
      cases hstep : step first rest with
      | skip extra =>
          rw [hstep] at hextra
          have hbehind := offset_behind_step_le hdrop hextra
          obtain ⟨found, ending, hcut⟩ := exists_cut source (offset + (extra + 1)) hbehind
          exact ⟨found, ending, .skip hdrop hstep hcut⟩
      | token kind extra =>
          rw [hstep] at hextra
          have hbehind := offset_behind_step_le hdrop hextra
          obtain ⟨found, ending, hcut⟩ := exists_cut source (offset + (extra + 1)) hbehind
          exact ⟨(kind, offset) :: found, ending, .token hdrop hstep hcut⟩
      | unknown => exact ⟨[], _, .unknown hdrop hstep⟩
      | unterminated => exact ⟨[], _, .unterminated hdrop hstep⟩
termination_by source.length - offset

/-- What a step takes off, and what it leaves. -/
theorem take_step {source rest : List Char} {first : Char} {offset : Nat}
    (hdrop : source.drop offset = first :: rest) (extra : Nat) :
    first :: rest.take extra = (source.drop offset).take (extra + 1) ∧
      rest.drop extra = source.drop (offset + (extra + 1)) := by
  constructor
  · rw [hdrop, List.take_succ_cons]
  · rw [← List.drop_drop, hdrop, List.drop_succ_cons]

/-- From a position that belongs to the offset on, the lexer finds the tokens of the cut at the
positions that belong to their offsets. -/
theorem lexFrom_of_cut {source : List Char} {offset : Nat} {found : List (TokenKind × Nat)}
    {ending : Ending} (h : Cut source offset found ending) :
    lexFrom (.ofOffset source offset) (source.drop offset) =
      ⟨found.map (placed source), ending.report source⟩ := by
  induction h with
  | finished =>
      rw [List.drop_length, lexFrom]
      rfl
  | unknown hdrop hstep =>
      rw [hdrop, lexFrom, hstep]
      rfl
  | @unterminated offset first rest hdrop hstep =>
      have hlast : (Position.ofOffset source offset).after (first :: rest) =
          .ofOffset source source.length := by
        have hbehind := Position.ofOffset_after source offset (source.length - offset)
        have hall : (source.drop offset).take (source.length - offset) = first :: rest := by
          rw [← List.length_drop, List.take_length, hdrop]
        have hlt : offset < source.length := by
          have hne : source.drop offset ≠ [] := by simp [hdrop]
          simpa using hne
        have hsum : offset + (source.length - offset) = source.length := by omega
        rw [← hall, hbehind, hsum]
      rw [hdrop, lexFrom, hstep]
      simp only [hlast]
      simp only [Ending.report, Position.ofOffset, List.take_length, List.map_nil]
  | @skip offset extra first rest found ending hdrop hstep _ ih =>
      obtain ⟨htake, hrest⟩ := take_step hdrop extra
      rw [hdrop, lexFrom, hstep]
      simp only
      rw [htake, hrest, Position.ofOffset_after]
      exact ih
  | @token offset extra first rest kind found ending hdrop hstep _ ih =>
      obtain ⟨htake, hrest⟩ := take_step hdrop extra
      rw [hdrop, lexFrom, hstep]
      simp only
      rw [htake, hrest, Position.ofOffset_after, ih]
      rfl

/-- What is cut off at a place depends on the rest of the text alone. -/
theorem Cut.unique {source : List Char} {offset : Nat} {found other : List (TokenKind × Nat)}
    {ending otherEnding : Ending} (h : Cut source offset found ending)
    (hother : Cut source offset other otherEnding) : other = found ∧ otherEnding = ending := by
  induction h generalizing other otherEnding with
  | finished =>
      have hend : source.drop source.length = [] := List.drop_length
      cases hother with
      | finished => exact ⟨rfl, rfl⟩
      | _ => simp_all
  | unknown hdrop hstep =>
      cases hother with
      | finished => simp at hdrop
      | _ => simp_all
  | unterminated hdrop hstep =>
      cases hother with
      | finished => simp at hdrop
      | _ => simp_all
  | skip hdrop hstep _ ih =>
      cases hother with
      | finished => simp at hdrop
      | skip hdrop' hstep' hcut' =>
          obtain ⟨rfl, rfl⟩ := List.cons.inj (hdrop.symm.trans hdrop')
          cases hstep.symm.trans hstep'
          exact ih hcut'
      | _ => simp_all
  | token hdrop hstep _ ih =>
      cases hother with
      | finished => simp at hdrop
      | token hdrop' hstep' hcut' =>
          obtain ⟨rfl, rfl⟩ := List.cons.inj (hdrop.symm.trans hdrop')
          cases hstep.symm.trans hstep'
          have hrest := ih hcut'
          exact ⟨by rw [hrest.1], hrest.2⟩
      | _ => simp_all

theorem lex_of_cut {source : String} {found : List (TokenKind × Nat)} {ending : Ending}
    (h : Cut source.toList 0 found ending) :
    lex source = ⟨found.map (placed source.toList), ending.report source.toList⟩ :=
  lexFrom_of_cut h

/-- A source text is cut in exactly one way, and the lexer returns the tokens of the cut.  Each
of them stands on the line and in the column of the offset of its first character, and so does
the end of the source.  An unknown character is reported in the same manner, and a text that is
not closed on the last line of the source, in the column of its quote. -/
theorem positions_of_lex (source : String) :
    ∃ found ending,
      Cut source.toList 0 found ending ∧
      (∀ other otherEnding, Cut source.toList 0 other otherEnding →
        other = found ∧ otherEnding = ending) ∧
      (lex source).tokens = found.map (fun (kind, offset) =>
        ⟨kind,
          1 + (source.toList.take offset).count '\n',
          1 + ((source.toList.take offset).reverse.takeWhile (· ≠ '\n')).length⟩) ∧
      (lex source).ending = ending.report source.toList := by
  obtain ⟨found, ending, hcut⟩ := exists_cut source.toList 0 (Nat.zero_le _)
  have hlex := lex_of_cut hcut
  refine ⟨found, ending, hcut, ?_, ?_, ?_⟩
  · intro other otherEnding hother
    exact hcut.unique hother
  · rw [hlex]
    rfl
  · rw [hlex]

end Lexer

end Bhasha
