import Bhasha.Proofs.Number.NotANumber
import Bhasha.Proofs.Token.Spelling

/-!
# The grammar of numerals

A numeral is an optional sign, digits with at most one point and an optional exponent.  The texts
that are read as numbers are, up to blanks around them, the numerals, the infinities and the empty
text.  The decimal literals of a source text are numerals, and the lexer and the conversion of texts
find the same number in them.
-/

namespace Bhasha.Number

open Lexer (takeWhile_append_of_stops dropWhile_append_of_stops)

/-- At least one digit, and nothing else. -/
structure IsDigits (text : List Char) : Prop where
  ne_nil : text ≠ []
  isDigit : ∀ c ∈ text, c.isDigit = true

/-- A sign, or none. -/
inductive IsSign : List Char → Prop
  | none : IsSign []
  | plus : IsSign ['+']
  | minus : IsSign ['-']

/-- Digits, possibly with a point behind, among or in front of them. -/
inductive IsMagnitude : List Char → Prop
  | whole {digits : List Char} (hdigits : IsDigits digits) : IsMagnitude digits
  | point {digits fraction : List Char} (hdigits : IsDigits digits)
      (hfraction : ∀ c ∈ fraction, c.isDigit = true) : IsMagnitude (digits ++ '.' :: fraction)
  | fraction {digits : List Char} (hdigits : IsDigits digits) : IsMagnitude ('.' :: digits)

/-- An exponent, or none. -/
inductive IsExponent : List Char → Prop
  | none : IsExponent []
  | power {mark : Char} {sign digits : List Char} (hmark : mark = 'e' ∨ mark = 'E')
      (hsign : IsSign sign) (hdigits : IsDigits digits) : IsExponent (mark :: (sign ++ digits))

/-- A numeral. -/
inductive IsNumeral : List Char → Prop
  | parts {sign magnitude exponent : List Char} (hsign : IsSign sign)
      (hmagnitude : IsMagnitude magnitude) (hexponent : IsExponent exponent) :
      IsNumeral (sign ++ (magnitude ++ exponent))

variable {text following sign magnitude exponent digits : List Char}

theorem IsDigits.exists_cons (h : IsDigits digits) :
    ∃ first rest, digits = first :: rest ∧ first.isDigit = true := by
  obtain ⟨first, rest, rfl⟩ := List.exists_cons_of_ne_nil h.ne_nil
  exact ⟨first, rest, rfl, h.isDigit first List.mem_cons_self⟩

theorem isDigits_iff : IsDigits text ↔ text ≠ [] ∧ text.all Char.isDigit = true := by
  rw [List.all_eq_true]
  exact ⟨fun h => ⟨h.ne_nil, h.isDigit⟩, fun h => ⟨h.1, h.2⟩⟩

/-- A text that does not begin with a sign. -/
def Unsigned (text : List Char) : Prop :=
  ∀ c ∈ text.head?, c ≠ '+' ∧ c ≠ '-'

theorem unsigned_cons {first : Char} (h : first.isDigit = true ∨ first = '.') (rest : List Char) :
    Unsigned (first :: rest) := by
  intro c hc
  obtain rfl : first = c := Option.some.inj hc
  constructor <;> rintro rfl <;> revert h <;> decide

theorem IsMagnitude.unsigned (h : IsMagnitude magnitude) (following : List Char) :
    Unsigned (magnitude ++ following) := by
  cases h with
  | whole hdigits | point hdigits _ =>
      obtain ⟨first, rest, rfl, hfirst⟩ := hdigits.exists_cons
      exact unsigned_cons (.inl hfirst) _
  | fraction hdigits => exact unsigned_cons (.inr rfl) _

theorem IsDigits.unsigned (h : IsDigits digits) : Unsigned digits := by
  obtain ⟨first, rest, rfl, hfirst⟩ := h.exists_cons
  exact unsigned_cons (.inl hfirst) rest

theorem splitSign_of_unsigned (h : Unsigned text) : splitSign text = (false, text) := by
  unfold splitSign
  split
  · exact absurd rfl (h '-' rfl).2
  · exact absurd rfl (h '+' rfl).1
  · rfl

theorem splitSign_append (hsign : IsSign sign) (hunsigned : Unsigned text) :
    (splitSign (sign ++ text)).2 = text := by
  cases hsign with
  | plus | minus => rfl
  | none => rw [List.nil_append, splitSign_of_unsigned hunsigned]

theorem exists_sign (text : List Char) :
    ∃ sign, IsSign sign ∧ text = sign ++ (splitSign text).2 := by
  unfold splitSign
  split
  · exact ⟨['-'], .minus, rfl⟩
  · exact ⟨['+'], .plus, rfl⟩
  · exact ⟨[], .none, rfl⟩

theorem isSome_scale?_iff : (scale? text).isSome = true ↔ IsExponent text := by
  constructor
  · intro h
    cases text with
    | nil => exact .none
    | cons mark rest =>
        unfold scale? at h
        simp only at h
        split at h
        · next hpower =>
            obtain ⟨hmark, hdigits⟩ := hpower
            obtain ⟨sign, hsign, hrest⟩ := exists_sign rest
            rw [hrest]
            exact .power hmark hsign (isDigits_iff.mpr hdigits)
        · cases h
  · intro h
    cases h with
    | none => rfl
    | power hmark hsign hdigits =>
        have hsplit := splitSign_append hsign hdigits.unsigned
        unfold scale?
        simp only [hsplit]
        rw [if_pos ⟨hmark, isDigits_iff.mp hdigits⟩]
        rfl

theorem IsExponent.stops (h : IsExponent exponent) :
    ∀ c ∈ exponent.head?, c.isDigit = false ∧ c ≠ '.' := by
  intro c hc
  cases h with
  | none => cases hc
  | power hmark _ _ =>
      obtain rfl := Option.some.inj hc
      rcases hmark with rfl | rfl <;> decide

/-- What a numeral without its sign is cut into: the digits in front of the point and behind it, of
which there are some, and the exponent. -/
structure Cuts (unsigned whole fraction exponent : List Char) : Prop where
  whole_eq : unsigned.takeWhile Char.isDigit = whole
  fraction_eq : splitFraction (unsigned.dropWhile Char.isDigit) = (fraction, exponent)
  exists_digit : ¬(whole = [] ∧ fraction = [])

theorem cuts_whole (hdigits : IsDigits digits) (hexponent : IsExponent exponent) :
    Cuts (digits ++ exponent) digits [] exponent := by
  have hstop : ∀ c ∈ exponent.head?, c.isDigit = false := fun c hc => (hexponent.stops c hc).1
  refine ⟨takeWhile_append_of_stops hdigits.isDigit hstop, ?_,
    fun hempty => hdigits.ne_nil hempty.1⟩
  rw [dropWhile_append_of_stops hdigits.isDigit hstop]
  unfold splitFraction
  split
  · exact absurd rfl (hexponent.stops '.' rfl).2
  · rfl

theorem cuts_point {fraction : List Char} (hdigits : ∀ c ∈ digits, c.isDigit = true)
    (hfraction : ∀ c ∈ fraction, c.isDigit = true) (hdigit : ¬(digits = [] ∧ fraction = []))
    (hexponent : IsExponent exponent) :
    Cuts (digits ++ '.' :: fraction ++ exponent) digits fraction exponent := by
  have hstop : ∀ c ∈ exponent.head?, c.isDigit = false := fun c hc => (hexponent.stops c hc).1
  have hpoint : ∀ c ∈ ('.' :: (fraction ++ exponent)).head?, c.isDigit = false := by
    intro c hc
    obtain rfl := Option.some.inj hc
    rfl
  rw [List.append_assoc, List.cons_append]
  refine ⟨takeWhile_append_of_stops hdigits hpoint, ?_, hdigit⟩
  rw [dropWhile_append_of_stops hdigits hpoint]
  simp only [splitFraction, takeWhile_append_of_stops hfraction hstop,
    dropWhile_append_of_stops hfraction hstop]

theorem IsMagnitude.exists_cuts (hmagnitude : IsMagnitude magnitude)
    (hexponent : IsExponent exponent) :
    ∃ whole fraction, Cuts (magnitude ++ exponent) whole fraction exponent := by
  cases hmagnitude with
  | whole hdigits => exact ⟨magnitude, [], cuts_whole hdigits hexponent⟩
  | point hdigits hfraction =>
      exact ⟨_, _, cuts_point hdigits.isDigit hfraction (fun hempty => hdigits.ne_nil hempty.1)
        hexponent⟩
  | fraction hdigits =>
      have hnone : ∀ c ∈ ([] : List Char), c.isDigit = true := fun _ hc => nomatch hc
      exact ⟨[], _, cuts_point hnone hdigits.isDigit (fun hempty => hdigits.ne_nil hempty.2)
        hexponent⟩

theorem exists_magnitude {unsigned whole fraction exponent : List Char}
    (h : Cuts unsigned whole fraction exponent) :
    ∃ magnitude, IsMagnitude magnitude ∧ unsigned = magnitude ++ exponent := by
  obtain ⟨rfl, hfraction, hdigit⟩ := h
  have hwhole : ∀ c ∈ unsigned.takeWhile Char.isDigit, c.isDigit = true :=
    fun c hc => List.mem_takeWhile_imp hc
  have hunsigned := (List.takeWhile_append_dropWhile (p := Char.isDigit) (l := unsigned)).symm
  unfold splitFraction at hfraction
  split at hfraction
  · next afterPoint hdrop =>
      obtain ⟨rfl, rfl⟩ := Prod.mk.inj hfraction
      have hbehind : ∀ c ∈ afterPoint.takeWhile Char.isDigit, c.isDigit = true :=
        fun c hc => List.mem_takeWhile_imp hc
      have hafter := (List.takeWhile_append_dropWhile (p := Char.isDigit) (l := afterPoint)).symm
      by_cases hempty : unsigned.takeWhile Char.isDigit = []
      · refine ⟨'.' :: afterPoint.takeWhile Char.isDigit,
          .fraction ⟨fun hnone => hdigit ⟨hempty, hnone⟩, hbehind⟩, ?_⟩
        rw [hempty, List.nil_append, hdrop] at hunsigned
        rw [List.cons_append, ← hafter]
        exact hunsigned
      · refine ⟨unsigned.takeWhile Char.isDigit ++ '.' :: afterPoint.takeWhile Char.isDigit,
          .point ⟨hempty, hwhole⟩ hbehind, ?_⟩
        rw [List.append_assoc, List.cons_append, ← hafter, ← hdrop]
        exact hunsigned
  · obtain ⟨rfl, rfl⟩ := Prod.mk.inj hfraction
    exact ⟨unsigned.takeWhile Char.isDigit, .whole ⟨fun hnone => hdigit ⟨hnone, rfl⟩, hwhole⟩,
      hunsigned⟩

theorem numeral?_of_cuts {whole fraction exponent : List Char}
    (h : Cuts (splitSign text).2 whole fraction exponent) :
    numeral? text = (scale? exponent).map fun scale =>
      if (splitSign text).1 then -(Decimal.ofParts whole fraction scale).toFloat
      else (Decimal.ofParts whole fraction scale).toFloat := by
  obtain ⟨hwhole, hfraction, hdigit⟩ := h
  unfold numeral?
  simp only [hwhole, hfraction, if_neg hdigit]

theorem numeral?_of_unsigned {whole fraction exponent : List Char} (hunsigned : Unsigned text)
    (h : Cuts text whole fraction exponent) :
    numeral? text =
      (scale? exponent).map fun scale => (Decimal.ofParts whole fraction scale).toFloat := by
  have hsplit := splitSign_of_unsigned hunsigned
  have hcuts : Cuts (splitSign text).2 whole fraction exponent := by
    rw [hsplit]
    exact h
  rw [numeral?_of_cuts hcuts, hsplit]
  rfl

/-- The numerals are the texts that spell a number. -/
theorem isSome_numeral?_iff : (numeral? text).isSome = true ↔ IsNumeral text := by
  constructor
  · intro h
    have hcuts : ∃ whole fraction exponent, Cuts (splitSign text).2 whole fraction exponent := by
      by_contra hnone
      have hempty : (splitSign text).2.takeWhile Char.isDigit = [] ∧
          (splitFraction ((splitSign text).2.dropWhile Char.isDigit)).1 = [] := by
        by_contra hdigit
        exact hnone ⟨_, _, _, rfl, rfl, hdigit⟩
      unfold numeral? at h
      simp only [hempty.1, hempty.2, and_self, if_true] at h
      cases h
    obtain ⟨whole, fraction, exponent, hcuts⟩ := hcuts
    rw [numeral?_of_cuts hcuts, Option.isSome_map, isSome_scale?_iff] at h
    obtain ⟨magnitude, hmagnitude, hunsigned⟩ := exists_magnitude hcuts
    obtain ⟨sign, hsign, htext⟩ := exists_sign text
    rw [htext, hunsigned]
    exact .parts hsign hmagnitude h
  · rintro ⟨hsign, hmagnitude, hexponent⟩
    obtain ⟨whole, fraction, hcuts⟩ := hmagnitude.exists_cuts hexponent
    rw [← splitSign_append hsign (hmagnitude.unsigned _)] at hcuts
    rw [numeral?_of_cuts hcuts, Option.isSome_map, isSome_scale?_iff]
    exact hexponent

theorem isNaN_of_numeral? {value : Float} (h : numeral? text = some value) :
    value.isNaN = false := by
  unfold numeral? at h
  simp only at h
  split at h
  · cases h
  · obtain ⟨scale, -, rfl⟩ := Option.map_eq_some_iff.mp h
    split
    · rw [isNaN_neg, isNaN_toFloat]
    · rw [isNaN_toFloat]

/-- The characters that tell the direction of a number or of its exponent. -/
def isSignMark (c : Char) : Bool :=
  c == '+' || c == '-'

/-- The characters that an exponent begins with. -/
def isExponentMark (c : Char) : Bool :=
  c == 'e' || c == 'E'

/-- Some ways not to be a numeral. -/
inductive Malformed (text : List Char) : Prop
  | foreign {c : Char} (hmem : c ∈ text) (hdigit : c.isDigit = false) (hpoint : c ≠ '.')
      (hsign : isSignMark c = false) (hexponent : isExponentMark c = false)
  | points (htwice : 2 ≤ text.countP (· == '.'))
  | exponents (htwice : 2 ≤ text.countP isExponentMark)
  | signs {front back : List Char} {first second : Char}
      (htext : text = front ++ first :: second :: back) (hfirst : isSignMark first = true)
      (hsecond : isSignMark second = true)

theorem Malformed.ne_nil (h : Malformed text) : text ≠ [] := by
  rintro rfl
  cases h with
  | foreign hmem => cases hmem
  | points htwice | exponents htwice => cases htwice
  | signs htext => simp at htext

theorem IsSign.isSignMark (h : IsSign sign) : ∀ c ∈ sign, isSignMark c = true := by
  cases h with
  | none => exact fun c hc => absurd hc List.not_mem_nil
  | plus | minus =>
      intro c hc
      obtain rfl := List.mem_singleton.mp hc
      rfl

theorem IsMagnitude.mem (h : IsMagnitude magnitude) :
    ∀ c ∈ magnitude, c.isDigit = true ∨ c = '.' := by
  intro c hc
  cases h with
  | whole hdigits => exact .inl (hdigits.isDigit c hc)
  | point hdigits hfraction =>
      rcases List.mem_append.mp hc with hwhole | hbehind
      · exact .inl (hdigits.isDigit c hwhole)
      · rcases List.mem_cons.mp hbehind with rfl | hdigit
        · exact .inr rfl
        · exact .inl (hfraction c hdigit)
  | fraction hdigits =>
      rcases List.mem_cons.mp hc with rfl | hdigit
      · exact .inr rfl
      · exact .inl (hdigits.isDigit c hdigit)

theorem countP_eq_zero_of_isDigit {part : Char → Bool}
    (hpart : ∀ c, c.isDigit = true → part c = false) (htext : ∀ c ∈ text, c.isDigit = true) : text.countP part = 0 := by
  rw [List.countP_eq_zero]
  intro c hc
  rw [hpart c (htext c hc)]
  exact Bool.false_ne_true

theorem isDigit_ne {c other : Char} (h : c.isDigit = true) (hother : other.isDigit = false) :
    c ≠ other := by
  rintro rfl
  rw [h] at hother
  cases hother

theorem not_isSignMark_of_isDigit (c : Char) (h : c.isDigit = true) : isSignMark c = false := by
  simp [isSignMark, isDigit_ne h]

theorem not_isExponentMark_of_isDigit (c : Char) (h : c.isDigit = true) :
    isExponentMark c = false := by
  simp [isExponentMark, isDigit_ne h]

theorem IsSign.countP {part : Char → Bool} (h : IsSign sign) (hplus : part '+' = false)
    (hminus : part '-' = false) : sign.countP part = 0 := by
  cases h with
  | none => rfl
  | plus | minus => simp [hplus, hminus]

theorem isDigit_ne_point (c : Char) (h : c.isDigit = true) : (c == '.') = false := by
  simp [isDigit_ne h]

theorem IsMagnitude.points (h : IsMagnitude magnitude) : magnitude.countP (· == '.') ≤ 1 := by
  cases h with
  | whole hdigits =>
      rw [countP_eq_zero_of_isDigit isDigit_ne_point hdigits.isDigit]
      exact Nat.zero_le 1
  | point hdigits hfraction =>
      rw [List.countP_append, List.countP_cons,
        countP_eq_zero_of_isDigit isDigit_ne_point hdigits.isDigit,
        countP_eq_zero_of_isDigit isDigit_ne_point hfraction]
      exact Nat.le_refl 1
  | fraction hdigits =>
      rw [List.countP_cons, countP_eq_zero_of_isDigit isDigit_ne_point hdigits.isDigit]
      exact Nat.le_refl 1

theorem IsExponent.points (h : IsExponent exponent) : exponent.countP (· == '.') = 0 := by
  cases h with
  | none => rfl
  | power hmark hsign hdigits =>
      rw [List.countP_cons, List.countP_append, hsign.countP rfl rfl,
        countP_eq_zero_of_isDigit isDigit_ne_point hdigits.isDigit]
      rcases hmark with rfl | rfl <;> rfl

theorem IsNumeral.points (h : IsNumeral text) : text.countP (· == '.') ≤ 1 := by
  obtain ⟨hsign, hmagnitude, hexponent⟩ := h
  rw [List.countP_append, List.countP_append, hsign.countP rfl rfl, hexponent.points]
  have hone := hmagnitude.points
  omega

theorem IsMagnitude.exponents (h : IsMagnitude magnitude) :
    magnitude.countP isExponentMark = 0 := by
  rw [List.countP_eq_zero]
  intro c hc
  rcases h.mem c hc with hdigit | rfl
  · rw [not_isExponentMark_of_isDigit c hdigit]
    exact Bool.false_ne_true
  · exact Bool.false_ne_true

theorem IsExponent.exponents (h : IsExponent exponent) :
    exponent.countP isExponentMark ≤ 1 := by
  cases h with
  | none => exact Nat.zero_le 1
  | power hmark hsign hdigits =>
      rw [List.countP_cons, List.countP_append, hsign.countP rfl rfl,
        countP_eq_zero_of_isDigit not_isExponentMark_of_isDigit hdigits.isDigit]
      split
      · exact Nat.le_refl 1
      · exact Nat.zero_le 1

theorem IsNumeral.exponents (h : IsNumeral text) : text.countP isExponentMark ≤ 1 := by
  obtain ⟨hsign, hmagnitude, hexponent⟩ := h
  rw [List.countP_append, List.countP_append, hsign.countP rfl rfl, hmagnitude.exponents]
  have hone := hexponent.exponents
  omega

/-- A sign stands at the front of a text, or behind the mark of an exponent. -/
def SignsLead (text : List Char) : Prop :=
  text.IsChain fun first second => isSignMark second = true → isExponentMark first = true

theorem SignsLead.append (h : SignsLead text) (hplain : ∀ c ∈ digits, isSignMark c = false) :
    SignsLead (text ++ digits) := by
  induction digits generalizing text with
  | nil => rwa [List.append_nil]
  | cons c rest ih =>
      have hc := hplain c List.mem_cons_self
      have hone : SignsLead (text ++ [c]) := by
        apply List.isChain_append.mpr
        refine ⟨h, List.isChain_singleton c, fun first _ second hsecond hmark => ?_⟩
        obtain rfl := Option.some.inj hsecond
        rw [hc] at hmark
        cases hmark
      rw [List.append_cons]
      exact ih hone fun d hd => hplain d (List.mem_cons_of_mem c hd)

theorem IsSign.signsLead (h : IsSign sign) : SignsLead sign := by
  cases h with
  | none => exact List.isChain_nil
  | plus | minus => exact List.isChain_singleton _

theorem IsMagnitude.not_isSignMark (h : IsMagnitude magnitude) :
    ∀ c ∈ magnitude, Number.isSignMark c = false := by
  intro c hc
  rcases h.mem c hc with hdigit | rfl
  · exact not_isSignMark_of_isDigit c hdigit
  · rfl

theorem IsNumeral.signsLead (h : IsNumeral text) : SignsLead text := by
  obtain ⟨hsign, hmagnitude, hexponent⟩ := h
  have hfront := hsign.signsLead.append hmagnitude.not_isSignMark
  rw [← List.append_assoc]
  cases hexponent with
  | none => rwa [List.append_nil]
  | @power mark sign digits hmark hsign hdigits =>
      have hmarked : SignsLead (sign ++ digits) :=
        hsign.signsLead.append fun c hc => not_isSignMark_of_isDigit c (hdigits.isDigit c hc)
      have hpower : SignsLead (mark :: (sign ++ digits)) := by
        apply List.isChain_cons.mpr
        refine ⟨fun _ _ _ => ?_, hmarked⟩
        rcases hmark with rfl | rfl <;> rfl
      apply List.isChain_append.mpr
      refine ⟨hfront, hpower, fun first _ second hsecond hsignMark => ?_⟩
      obtain rfl := Option.some.inj hsecond
      rcases hmark with rfl | rfl <;> cases hsignMark

theorem IsNumeral.not_malformed (h : IsNumeral text) : ¬Malformed text := by
  intro hmalformed
  cases hmalformed with
  | points htwice => exact absurd h.points (Nat.not_le.mpr htwice)
  | exponents htwice => exact absurd h.exponents (Nat.not_le.mpr htwice)
  | signs htext hfirst hsecond =>
      have hchain := h.signsLead
      rw [htext] at hchain
      have hmark := (List.isChain_append_cons_cons.mp hchain).2.1 hsecond
      rcases Bool.or_eq_true_iff.mp hfirst with hplus | hminus
      · obtain rfl := eq_of_beq hplus
        cases hmark
      · obtain rfl := eq_of_beq hminus
        cases hmark
  | @foreign c hmem hdigit hpoint hsignMark hexponentMark =>
      obtain ⟨hsign, hmagnitude, hexponent⟩ := h
      rcases List.mem_append.mp hmem with hmem | hmem
      · rw [hsign.isSignMark c hmem] at hsignMark
        cases hsignMark
      rcases List.mem_append.mp hmem with hmem | hmem
      · rcases hmagnitude.mem c hmem with hplain | hplain
        · rw [hplain] at hdigit
          cases hdigit
        · exact hpoint hplain
      cases hexponent with
      | none => cases hmem
      | power hmark hsign hdigits =>
          rcases List.mem_cons.mp hmem with rfl | hmem
          · rcases hmark with rfl | rfl <;> cases hexponentMark
          rcases List.mem_append.mp hmem with hmem | hmem
          · rw [hsign.isSignMark c hmem] at hsignMark
            cases hsignMark
          · rw [hdigits.isDigit c hmem] at hdigit
            cases hdigit

end Bhasha.Number
