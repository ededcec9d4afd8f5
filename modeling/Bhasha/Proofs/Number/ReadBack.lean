import Bhasha.Proofs.Number.Decimal
import Bhasha.Proofs.Token.Spelling

/-!
# Numbers are read back

The text of a finite number is a decimal literal, with a minus in front if the number is negative.
The search for the shortest decimal only takes one that reads back, and if it finds none the decimal
that is exactly the number reads back as well.
-/

namespace Bhasha

open Float.Model Float.Model.UnpackedFloat

namespace Decimal

variable {number : Float} {mantissa tries : Nat} {binary decimal : Int} {found : Decimal}

theorem onGrid?_eq_some (h : onGrid? number mantissa binary decimal = some found) :
    found.toFloat = number ∧ found.exponent = decimal := by
  unfold onGrid? at h
  simp only at h
  split at h
  · next habove =>
      cases h
      exact ⟨habove.1, rfl⟩
  · split at h
    · next hbelow =>
        cases h
        exact ⟨hbelow, rfl⟩
    · cases h

/-- What the search finds reads back, and it does not go above the grid that it starts from. -/
theorem coarsest?_eq_some (h : coarsest? number mantissa binary tries decimal = some found) :
    found.toFloat = number ∧ found.exponent ≤ decimal := by
  induction tries generalizing decimal with
  | zero => cases h
  | succ tries ih =>
      unfold coarsest? at h
      split at h
      · next hgrid =>
          cases h
          obtain ⟨hread, hexponent⟩ := onGrid?_eq_some hgrid
          exact ⟨hread, Int.le_of_eq hexponent⟩
      · obtain ⟨hread, hexponent⟩ := ih h
        exact ⟨hread, by omega⟩

theorem ofDigits_eq {digits : List Char} (h : ∀ c ∈ digits, c.isDigit = true) :
    ofDigits digits = Nat.ofDigitChars 10 digits 0 := by
  have hfrom : ∀ start, digits.foldl (fun value c => 10 * value + digitValue c) start =
      Nat.ofDigitChars 10 digits start := by
    intro start
    induction digits generalizing start with
    | nil => rw [List.foldl_nil, Nat.ofDigitChars_nil]
    | cons c rest ih =>
        have hdigit : digitValue c = c.toNat - '0'.toNat := by
          unfold digitValue
          rw [if_pos (h c (by simp))]
        rw [List.foldl_cons, Nat.ofDigitChars_cons, hdigit]
        exact ih (fun other hother => h other (by simp [hother])) _
  exact hfrom 0

theorem isDigit_of_mem_zeros {count : Nat} {c : Char} (h : c ∈ List.replicate count '0') :
    c.isDigit = true := by
  obtain ⟨-, rfl⟩ := List.mem_replicate.mp h
  rfl

theorem isDigit_of_mem_digitsOf {value : Nat} {c : Char} (h : c ∈ digitsOf value) :
    c.isDigit = true :=
  Nat.isDigit_of_mem_toDigits (by decide) (by decide) h

theorem isDigit_of_mem_padded {front value behind : Nat} {c : Char}
    (h : c ∈ List.replicate front '0' ++ digitsOf value ++ List.replicate behind '0') :
    c.isDigit = true := by
  rcases List.mem_append.mp h with hc | hc
  · rcases List.mem_append.mp hc with hc | hc
    · exact isDigit_of_mem_zeros hc
    · exact isDigit_of_mem_digitsOf hc
  · exact isDigit_of_mem_zeros hc

theorem ofDigits_padded (front value behind : Nat) :
    ofDigits (List.replicate front '0' ++ digitsOf value ++ List.replicate behind '0') =
      value * 10 ^ behind := by
  have hfront : Nat.ofDigitChars 10 (List.replicate front '0') 0 = 0 := by
    rw [Nat.ofDigitChars_replicate_zero, Nat.mul_zero]
  have hvalue : Nat.ofDigitChars 10 (digitsOf value) 0 = value := Nat.ofDigitChars_ten_toDigits
  rw [ofDigits_eq fun _ => isDigit_of_mem_padded, Nat.ofDigitChars_append, Nat.ofDigitChars_append,
    hfront, hvalue, Nat.ofDigitChars_replicate_zero, Nat.mul_comm]

theorem exists_numeral_whole {digits : List Char} (h : ∀ c ∈ digits, c.isDigit = true)
    (hne : digits ≠ []) :
    ∃ numeral : Numeral, digits = numeral.first :: numeral.tail ∧
      numeral.value = (Decimal.mk (ofDigits digits) 0).toFloat := by
  cases digits with
  | nil => exact absurd rfl hne
  | cons first rest =>
      have hfirst : first.isDigit = true := h first (by simp)
      have hrest : ∀ c ∈ rest, c.isDigit = true := by
        intro c hc
        exact h c (by simp [hc])
      refine ⟨⟨first, rest, none, hfirst, hrest, by simp⟩, rfl, ?_⟩
      simp [Numeral.value, ofParts]

theorem exists_numeral_point {digits : List Char} {places : Nat}
    (h : ∀ c ∈ digits, c.isDigit = true) (hplaces : places < digits.length) :
    ∃ numeral : Numeral,
      digits.take (digits.length - places) ++ '.' :: digits.drop (digits.length - places) =
        numeral.first :: numeral.tail ∧
      numeral.value = (Decimal.mk (ofDigits digits) (-places)).toFloat := by
  cases hwhole : digits.take (digits.length - places) with
  | nil =>
      have hzero := congrArg List.length hwhole
      rw [List.length_take, List.length_nil] at hzero
      omega
  | cons first rest =>
      have hall : ∀ c ∈ first :: rest, c.isDigit = true := by
        intro c hc
        rw [← hwhole] at hc
        exact h c (List.mem_of_mem_take hc)
      have hfirst : first.isDigit = true := hall first (by simp)
      have hrest : ∀ c ∈ rest, c.isDigit = true := by
        intro c hc
        exact hall c (by simp [hc])
      have hfraction : ∀ fraction ∈ some (digits.drop (digits.length - places)),
          ∀ c ∈ fraction, c.isDigit = true := by
        intro fraction hsome c hc
        cases hsome
        exact h c (List.mem_of_mem_drop hc)
      have hcount : (digits.drop (digits.length - places)).length = places := by
        rw [List.length_drop]
        omega
      refine ⟨⟨first, rest, _, hfirst, hrest, hfraction⟩, rfl, ?_⟩
      simp only [Numeral.value, Option.getD_some, ofParts]
      rw [← hwhole, List.take_append_drop, hcount, Int.zero_sub]

/-- The decimal whose power of ten is multiplied out, if it is not a fraction. -/
def multiplied (decimal : Decimal) : Decimal :=
  if 0 ≤ decimal.exponent then ⟨decimal.coefficient * 10 ^ decimal.exponent.toNat, 0⟩ else decimal

/-- The positional notation of a decimal is a literal for it. -/
theorem exists_numeral_positional (decimal : Decimal) :
    ∃ numeral : Numeral, decimal.positional = numeral.first :: numeral.tail ∧
      numeral.value = decimal.multiplied.toFloat := by
  obtain ⟨coefficient, exponent⟩ := decimal
  unfold positional multiplied
  simp only
  split
  · next hsign =>
      have hdigits : digitsOf coefficient ++ List.replicate exponent.toNat '0' =
          List.replicate 0 '0' ++ digitsOf coefficient ++ List.replicate exponent.toNat '0' := rfl
      have hne : digitsOf coefficient ++ List.replicate exponent.toNat '0' ≠ [] := by
        intro hnil
        exact Nat.toDigits_ne_nil (List.append_eq_nil_iff.mp hnil).1
      rw [← ofDigits_padded 0, ← hdigits]
      apply exists_numeral_whole _ hne
      intro c hc
      rw [hdigits] at hc
      exact isDigit_of_mem_padded hc
  · next hsign =>
      generalize hfront : (-exponent).toNat + 1 - (digitsOf coefficient).length = front
      have hdigits : List.replicate front '0' ++ digitsOf coefficient =
          List.replicate front '0' ++ digitsOf coefficient ++ List.replicate 0 '0' :=
        (List.append_nil _).symm
      have hvalue : ofDigits (List.replicate front '0' ++ digitsOf coefficient) = coefficient := by
        rw [hdigits, ofDigits_padded, Nat.pow_zero, Nat.mul_one]
      have hlength : (-exponent).toNat <
          (List.replicate front '0' ++ digitsOf coefficient).length := by
        rw [List.length_append, List.length_replicate]
        omega
      have hexponent : -((-exponent).toNat : Int) = exponent := by
        omega
      have hall : ∀ c ∈ List.replicate front '0' ++ digitsOf coefficient, c.isDigit = true := by
        intro c hc
        rw [hdigits] at hc
        exact isDigit_of_mem_padded hc
      have hnumeral := exists_numeral_point hall hlength
      rwa [hvalue, hexponent] at hnumeral

end Decimal

namespace Number

variable {x : Float} {sign : Sign} {mantissa : Nat} {exponent : Int} {hpos : 0 < mantissa}

theorem abs_eq (h : x.toModel.unpack = .finite sign mantissa exponent hpos) :
    x.abs = packed (.finite .positive mantissa exponent hpos) := by
  change packed x.toModel.unpack.abs = _
  rw [h]
  rfl

theorem shortest_toFloat (h : x.toModel.unpack = .finite sign mantissa exponent hpos) :
    (Decimal.shortest x).toFloat = x.abs ∧ (Decimal.shortest x).exponent ≤ 2048 := by
  have hcanonical : Canonical mantissa exponent := canonical_of_unpack h
  unfold Decimal.shortest
  rw [h]
  simp only
  cases hfound : Decimal.coarsest? x.abs mantissa exponent 20
    (Decimal.ceilingExponent mantissa exponent) with
  | some found =>
      obtain ⟨hread, hexponent⟩ := Decimal.coarsest?_eq_some hfound
      have hlog : mantissa.log2 < 53 := (Nat.log2_lt (Nat.ne_of_gt hpos)).mpr hcanonical.lt
      have hgreatest := hcanonical.greatest
      unfold Decimal.ceilingExponent at hexponent
      exact ⟨hread, by simp only [Option.getD_some]; omega⟩
  | none =>
      refine ⟨?_, ?_⟩
      · rw [Option.getD_none, toFloat_exactly hcanonical, abs_eq h]
      · rw [Option.getD_none]
        unfold Decimal.exactly
        split
        · change (0 : Int) ≤ 2048
          decide
        · change exponent ≤ 2048
          omega

theorem exists_numeral_shortest (h : x.toModel.unpack = .finite sign mantissa exponent hpos) :
    ∃ numeral : Numeral,
      (Decimal.shortest x).positional = numeral.first :: numeral.tail ∧ numeral.value = x.abs := by
  obtain ⟨numeral, hdigits, hvalue⟩ := Decimal.exists_numeral_positional (Decimal.shortest x)
  obtain ⟨hread, hexponent⟩ := shortest_toFloat h
  refine ⟨numeral, hdigits, ?_⟩
  rw [hvalue, ← hread]
  generalize Decimal.shortest x = decimal at hexponent ⊢
  obtain ⟨coefficient, exponent⟩ := decimal
  unfold Decimal.multiplied
  split
  · next hsign =>
      obtain ⟨places, rfl⟩ := Int.eq_ofNat_of_zero_le hsign
      exact toFloat_multiplied (by omega)
  · rfl

theorem beq_of_unpack {y : Float} (hx : x.toModel.unpack = .finite sign mantissa exponent hpos)
    (hy : y.toModel.unpack = .finite sign mantissa exponent hpos) : (x == y) = true := by
  change UnpackedFloat.beq x.toModel.unpack y.toModel.unpack = true
  rw [hx, hy, beq_iff_ne_notANumber_and_eq]
  exact ⟨nofun, nofun, .inl rfl⟩

/-- The text of a finite number is a literal, possibly with a minus in front, and the value of this is
the number. -/
theorem digits_of_finite (h : x.isFinite = true) :
    ∃ numeral : Numeral,
      (digits x = numeral.first :: numeral.tail ∧ (numeral.value == x) = true) ∨
      (digits x = '-' :: numeral.first :: numeral.tail ∧ (-numeral.value == x) = true) := by
  change x.toModel.unpack.isFinite = true at h
  cases hunpack : x.toModel.unpack with
  | notANumber =>
      rw [hunpack] at h
      cases h
  | infinity sign =>
      rw [hunpack] at h
      cases h
  | zero sign =>
      refine ⟨.ofDigit '0' rfl, .inl ⟨?_, ?_⟩⟩
      · unfold digits
        rw [hunpack]
        rfl
      · change UnpackedFloat.beq _ x.toModel.unpack = true
        rw [hunpack]
        rfl
  | finite sign mantissa exponent hpos =>
      have hcanonical : Canonical mantissa exponent := canonical_of_unpack hunpack
      obtain ⟨numeral, hdigits, hvalue⟩ := exists_numeral_shortest hunpack
      have habs := abs_eq hunpack
      refine ⟨numeral, ?_⟩
      unfold digits
      rw [hunpack, hvalue]
      simp only [hdigits]
      cases sign with
      | positive =>
          refine .inl ⟨rfl, beq_of_unpack ?_ hunpack⟩
          rw [habs]
          exact hcanonical.unpack_model .positive
      | negative =>
          refine .inr ⟨rfl, beq_of_unpack ?_ hunpack⟩
          have hunpackAbs : x.abs.toModel.unpack = .finite .positive mantissa exponent hpos := by
            rw [habs]
            exact hcanonical.unpack_model .positive
          have hneg : -x.abs = packed (.finite .negative mantissa exponent hpos) := by
            change packed x.abs.toModel.unpack.neg = _
            rw [hunpackAbs]
            rfl
          rw [hneg]
          exact hcanonical.unpack_model .negative

end Number

end Bhasha
