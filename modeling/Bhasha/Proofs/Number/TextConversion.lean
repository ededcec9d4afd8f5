import Bhasha.Proofs.Number.Grammar

/-!
# Texts as numbers

The conversion of a text removes the blanks around it, knows the infinities by name and reads
everything else as a numeral.  So it gives a number for the numerals, the infinities and the empty
text, and the numeral of a source text stands for the number that the conversion finds in it.
-/

namespace Bhasha

namespace Text

theorem trim_eq_self {text : List Char} (h : ∀ c ∈ text, isBlank c = false) : trim text = text := by
  have hdrop : ∀ {text : List Char}, (∀ c ∈ text, isBlank c = false) →
      text.dropWhile isBlank = text := by
    intro text hplain
    cases text with
    | nil => rfl
    | cons c rest => rw [List.dropWhile_cons, hplain c List.mem_cons_self]; rfl
  have hreverse : ∀ c ∈ text.reverse, isBlank c = false :=
    fun c hc => h c (List.mem_reverse.mp hc)
  rw [trim, hdrop h, hdrop hreverse, List.reverse_reverse]

theorem isBlank_of_isDigit {c : Char} (h : c.isDigit = true) : isBlank c = false := by
  have hzero : 48 ≤ c.toNat := by
    have hfirst : '0'.val ≤ c.val := of_decide_eq_true (Bool.and_eq_true_iff.mp h).1
    exact UInt32.le_iff_toNat_le.mp hfirst
  have hnine : c.toNat ≤ 57 := by
    have hlast : c.val ≤ '9'.val := of_decide_eq_true (Bool.and_eq_true_iff.mp h).2
    exact UInt32.le_iff_toNat_le.mp hlast
  have hlow : ¬c.toNat ≤ 0xD := by omega
  have hspace : ¬c.toNat ≤ 0x20 := by omega
  have hhigh : c.toNat < 0x85 := by omega
  simp [isBlank, blankRanges, inRanges, hlow, hspace, hhigh]

end Text

namespace Number

/-- The names of the infinities. -/
def infinities : List (List Char) :=
  ["Infinity".toList, "+Infinity".toList, "-Infinity".toList]

variable {text : String} {trimmed : List Char}

theorem parse_empty (h : Text.trim text.toList = []) : parse text = 0 := by
  unfold parse
  rw [h]
  rfl

theorem isNaN_zero : (0 : Float).isNaN = false := by
  decide +kernel

theorem isNaN_parse_infinity (h : Text.trim text.toList ∈ infinities) :
    (parse text).isNaN = false := by
  simp only [infinities, List.mem_cons, List.not_mem_nil, or_false] at h
  unfold parse
  rcases h with h | h | h
  · rw [h]
    exact isNaN_infinity
  · rw [h]
    exact isNaN_infinity
  · rw [h]
    exact (isNaN_neg infinity).trans isNaN_infinity

theorem parse_other (hempty : Text.trim text.toList ≠ [])
    (hinfinity : Text.trim text.toList ∉ infinities) :
    parse text = (numeral? (Text.trim text.toList)).getD nan := by
  have htoList : ∀ name, String.ofList (Text.trim text.toList) = name →
      Text.trim text.toList = name.toList := by
    intro name hname
    rw [← hname, String.toList_ofList]
  simp only [infinities, List.mem_cons, List.not_mem_nil, or_false, not_or] at hinfinity
  obtain ⟨hplain, hplus, hminus⟩ := hinfinity
  unfold parse
  split
  · next hname => exact absurd (htoList _ hname) hempty
  · next hname => exact absurd (htoList _ hname) hplain
  · next hname => exact absurd (htoList _ hname) hplus
  · next hname => exact absurd (htoList _ hname) hminus
  · rw [String.toList_ofList]

/-- The texts that are not read as a number. -/
theorem isNaN_parse_iff : (parse text).isNaN = true ↔ Text.trim text.toList ≠ [] ∧
    Text.trim text.toList ∉ infinities ∧ ¬IsNumeral (Text.trim text.toList) := by
  constructor
  · intro hnan
    have hempty : Text.trim text.toList ≠ [] := by
      intro hempty
      rw [parse_empty hempty, isNaN_zero] at hnan
      cases hnan
    have hinfinity : Text.trim text.toList ∉ infinities := by
      intro hinfinity
      rw [isNaN_parse_infinity hinfinity] at hnan
      cases hnan
    refine ⟨hempty, hinfinity, fun hnumeral => ?_⟩
    obtain ⟨value, hvalue⟩ := Option.isSome_iff_exists.mp (isSome_numeral?_iff.mpr hnumeral)
    rw [parse_other hempty hinfinity, hvalue, Option.getD_some, isNaN_of_numeral? hvalue] at hnan
    cases hnan
  · rintro ⟨hempty, hinfinity, hnumeral⟩
    have hnone : numeral? (Text.trim text.toList) = none := by
      rw [← Option.not_isSome_iff_eq_none, isSome_numeral?_iff]
      exact hnumeral
    rw [parse_other hempty hinfinity, hnone]
    exact isNaN_nan

end Number

namespace Numeral

variable (numeral : Numeral)

theorem trim_spelling : Text.trim numeral.spelling = numeral.spelling := by
  apply Text.trim_eq_self
  intro c hc
  rcases numeral.isDigit_or_point c hc with hdigit | rfl
  · exact Text.isBlank_of_isDigit hdigit
  · rfl

theorem numeral?_spelling : Number.numeral? numeral.spelling = some numeral.value := by
  obtain ⟨first, whole, fraction, hfirst, hwhole, hfraction⟩ := numeral
  have hdigits : Number.IsDigits (first :: whole) :=
    ⟨List.cons_ne_nil _ _, List.forall_mem_cons.mpr ⟨hfirst, hwhole⟩⟩
  have hunsigned : ∀ rest, Number.Unsigned (first :: rest) :=
    fun rest => Number.unsigned_cons (.inl hfirst) rest
  cases fraction with
  | none =>
      have hcuts := Number.cuts_whole hdigits .none
      rw [List.append_nil] at hcuts
      exact Number.numeral?_of_unsigned (hunsigned _) hcuts
  | some digits =>
      have hcuts := Number.cuts_point hdigits.isDigit (hfraction digits rfl)
        (fun hempty => hdigits.ne_nil hempty.1) .none
      rw [List.append_nil] at hcuts
      exact Number.numeral?_of_unsigned (hunsigned _) hcuts

/-- The lexer and the conversion find the same number in a decimal literal. -/
theorem parse_spelling : Number.parse (String.ofList numeral.spelling) = numeral.value := by
  have htrim : Text.trim (String.ofList numeral.spelling).toList = numeral.spelling := by
    rw [String.toList_ofList, numeral.trim_spelling]
  have hempty : numeral.spelling ≠ [] := List.cons_ne_nil _ _
  have hinfinity : numeral.spelling ∉ Number.infinities := by
    intro hmem
    have hletter : 'I' ∈ numeral.spelling := by
      simp only [Number.infinities, List.mem_cons, List.not_mem_nil, or_false] at hmem
      rcases hmem with hmem | hmem | hmem <;> rw [hmem] <;> decide
    rcases numeral.isDigit_or_point 'I' hletter with hdigit | hpoint
    · cases hdigit
    · cases hpoint
  rw [← htrim] at hempty hinfinity
  rw [Number.parse_other hempty hinfinity, htrim, numeral.numeral?_spelling, Option.getD_some]

theorem lex_spelling :
    Lexer.lex (String.ofList numeral.spelling) =
      ⟨[⟨.number numeral.value, .start⟩], .ok (Position.start.after numeral.spelling)⟩ := by
  have hstep : Lexer.step numeral.first numeral.tail =
      .token (.number numeral.value) numeral.tail.length := by
    have hread := Lexer.step_numeral numeral Lexer.Breaks.finish.parted
    rwa [List.append_nil] at hread
  rw [Lexer.lex, String.toList_ofList, spelling, Lexer.lexFrom, hstep]
  simp only [List.take_length, List.drop_length]
  rw [Lexer.lexFrom]

end Numeral

namespace Number

theorem exists_numeral {digits fraction literal : List Char} (hdigits : IsDigits digits)
    (hfraction : ∀ c ∈ fraction, c.isDigit = true)
    (hliteral : literal ∈ [digits, digits ++ '.' :: fraction]) :
    ∃ numeral : Numeral, numeral.spelling = literal := by
  obtain ⟨first, whole, rfl, hfirst⟩ := hdigits.exists_cons
  have hwhole : ∀ c ∈ whole, c.isDigit = true :=
    fun c hc => hdigits.isDigit c (List.mem_cons_of_mem first hc)
  simp only [List.mem_cons, List.not_mem_nil, or_false] at hliteral
  rcases hliteral with rfl | rfl
  · exact ⟨⟨first, whole, none, hfirst, hwhole, fun _ h => nomatch h⟩, rfl⟩
  · refine ⟨⟨first, whole, some fraction, hfirst, hwhole, fun digits h => ?_⟩, rfl⟩
    obtain rfl := Option.some.inj h
    exact hfraction

/-- The texts that are read as numbers are the numerals, the infinities and the empty text, up to
blanks around them.  A decimal literal is a source text of one token, whose number is the one that
the conversion reads. -/
theorem text_to_number :
    (∀ text, (parse text).isNaN = true ↔ Text.trim text.toList ≠ [] ∧
      Text.trim text.toList ∉ infinities ∧ ¬IsNumeral (Text.trim text.toList)) ∧
    (∀ text, Malformed (Text.trim text.toList) → Text.trim text.toList ∉ infinities →
      (parse text).isNaN = true) ∧
    ∀ digits, IsDigits digits → ∀ fraction, (∀ c ∈ fraction, c.isDigit = true) →
      ∀ literal ∈ [digits, digits ++ '.' :: fraction],
        Lexer.lex (String.ofList literal) =
          ⟨[⟨.number (parse (String.ofList literal)), .start⟩],
            .ok (Position.start.after literal)⟩ := by
  refine ⟨fun _ => isNaN_parse_iff, fun text hmalformed hinfinity => ?_,
    fun digits hdigits fraction hfraction literal hliteral => ?_⟩
  · exact isNaN_parse_iff.mpr
      ⟨hmalformed.ne_nil, hinfinity, fun hnumeral => hnumeral.not_malformed hmalformed⟩
  · obtain ⟨numeral, rfl⟩ := exists_numeral hdigits hfraction hliteral
    rw [numeral.lex_spelling, numeral.parse_spelling]

end Number

end Bhasha
