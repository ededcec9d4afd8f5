import Bhasha.Proofs.Number.Quotient

/-!
# The numbers that decimals are read as

A short decimal is read by an operation on two numbers that are exact, a whole coefficient and a
power of ten out of a table, and a long one by arithmetic without bounds.  Both ways round once, so
they agree, and the decimal that is exactly a number is read as this number.
-/

namespace Bhasha.Number

open Float.Model Float.Model.UnpackedFloat

theorem Canonical.unpack_model {mantissa : Nat} {exponent : Int} (h : Canonical mantissa exponent)
    (sign : Sign) :
    (Float.Model.pack (.finite sign mantissa exponent h.pos)).unpack =
      .finite sign mantissa exponent h.pos :=
  h.unpack_pack sign

/-- A number is positive and has a mantissa with all of its bits. -/
def StandsFor (number : Float) (value : Nat) : Prop :=
  ∃ mantissa exponent, ∃ h : Canonical mantissa exponent, 2 ^ 52 ≤ mantissa ∧
    number.toModel.unpack = .finite .positive mantissa exponent h.pos ∧
      size mantissa exponent = size value 0

theorem standsFor_ofNat {value : Nat} (hpos : 0 < value) (hlt : value < 2 ^ 53) :
    StandsFor value.toUInt64.toFloat value := by
  have hne : value ≠ 0 := Nat.ne_of_gt hpos
  have hlog : value.log2 < 53 := (Nat.log2_lt hne).mpr hlt
  have hself : 2 ^ value.log2 ≤ value := Nat.log2_self_le hne
  have hnext : value < 2 ^ (value.log2 + 1) := Nat.lt_log2_self
  have hcanonical : Canonical (value * 2 ^ (52 - value.log2)) (value.log2 - 52 : Int) := by
    have hlow : 2 ^ 52 ≤ value * 2 ^ (52 - value.log2) := by
      calc 2 ^ 52 = 2 ^ value.log2 * 2 ^ (52 - value.log2) := by
            rw [← Nat.pow_add]
            congr 1
            omega
        _ ≤ _ := Nat.mul_le_mul_right _ hself
    have hhigh : value * 2 ^ (52 - value.log2) < 2 ^ 53 := by
      calc value * 2 ^ (52 - value.log2) < 2 ^ (value.log2 + 1) * 2 ^ (52 - value.log2) :=
            Nat.mul_lt_mul_of_pos_right hnext (Nat.two_pow_pos _)
        _ = 2 ^ 53 := by
            rw [← Nat.pow_add]
            congr 1
            omega
    exact ⟨by omega, hhigh, by omega, by omega, .inl hlow⟩
  have hvalue : value.toUInt64.toNat = value := by
    rw [UInt64.toNat_ofNat']
    omega
  have hround : UnpackedFloat.ofNat Format.binary64 value =
      .finite .positive (value * 2 ^ (52 - value.log2)) (value.log2 - 52) hcanonical.pos := by
    have hcompare : compare (value : Int) 0 = .gt := by
      rw [Int.compare_eq_gt]
      omega
    unfold UnpackedFloat.ofNat UnpackedFloat.ofInt UnpackedFloat.normalize
    rw [hcompare]
    simp only [Int.toNat_natCast]
    unfold UnpackedFloat.round decreaseExponent
    have htarget : Format.binary64.targetExponent (totalExponent value 0) = value.log2 - 52 := by
      rw [targetExponent_eq, totalExponent]
      omega
    have hcount : (0 - (value.log2 - 52 : Int)).toNat = 52 - value.log2 := by omega
    have hexponent : (0 - ((52 - value.log2 : Nat) : Int)) = value.log2 - 52 := by omega
    simp only [htarget, hcount, hexponent, Nat.shiftLeft_eq]
    exact hcanonical.round_self .positive
  refine ⟨_, _, hcanonical, ?_, ?_, ?_⟩
  · exact hcanonical.full.resolve_right (by omega)
  · change (Float.Model.pack (UnpackedFloat.ofNat Format.binary64 value.toUInt64.toNat)).unpack = _
    rw [hvalue, hround, hcanonical.unpack_model]
  · rw [size_move]
    congr 1
    omega

/-- Whether an unpacked number has a mantissa with all of its bits and stands for a whole value. -/
def spells (value : Nat) : UnpackedFloat → Bool
  | .finite .positive mantissa exponent _ =>
      decide (2 ^ 52 ≤ mantissa ∧ mantissa < 2 ^ 53 ∧ -52 ≤ exponent ∧ exponent ≤ 971 ∧
        mantissa * 2 ^ (exponent + 52).toNat = value * 2 ^ 52)
  | _ => false

theorem standsFor_of_spells {number : Float} {value : Nat}
    (h : spells value number.toModel.unpack = true) : StandsFor number value := by
  unfold StandsFor
  generalize number.toModel.unpack = unpacked at h ⊢
  unfold spells at h
  split at h
  · next mantissa exponent hpos =>
      obtain ⟨hfull, hlt, hleast, hgreatest, hvalue⟩ := of_decide_eq_true h
      refine ⟨mantissa, exponent, ⟨hpos, hlt, by omega, hgreatest, .inl hfull⟩, hfull, rfl, ?_⟩
      calc size mantissa exponent = size (mantissa * 2 ^ (exponent + 52).toNat) (-52) := by
            rw [size_move]
            congr 1
            omega
        _ = size value 0 := by rw [hvalue, size_move]; rfl
  · cases h

theorem standsFor_power {places : Nat}
    (h : places < Float.exactlyRepresentablePowersOfTen.size) :
    StandsFor Float.exactlyRepresentablePowersOfTen[places] (10 ^ places) := by
  have hall : ∀ places (h : places < Float.exactlyRepresentablePowersOfTen.size),
      spells (10 ^ places) Float.exactlyRepresentablePowersOfTen[places].toModel.unpack = true := by
    decide +kernel
  exact standsFor_of_spells (hall places h)

/-- The number for an unpacked number. -/
def packed (number : UnpackedFloat) : Float :=
  .ofModel (.pack number)

/-- The number that is nearest to a whole value. -/
def nearest (value : Nat) : Float :=
  packed (roundWithAccuracy Format.binary64 .positive (value * 2 ^ 53) (-53) .exact)

variable {x y : Float} {value other coefficient places mantissa : Nat} {exponent : Int}

theorem StandsFor.pos (h : StandsFor x value) : 0 < value := by
  obtain ⟨mantissa, exponent, hcanonical, -, -, hsize⟩ := h
  rcases Nat.eq_zero_or_pos value with rfl | hpos
  · have hpositive : 0 < size mantissa exponent :=
      mul_pos (Nat.cast_pos.mpr hcanonical.pos) (zpow_pos (by norm_num) exponent)
    rw [hsize] at hpositive
    simp [size] at hpositive
  · exact hpos

theorem mul_of_standsFor (hx : StandsFor x value) (hy : StandsFor y other) :
    x * y = nearest (value * other) := by
  have hvalue := hx.pos
  have hother := hy.pos
  obtain ⟨first, firstExponent, hfirst, hfull, hunpack, hsize⟩ := hx
  obtain ⟨second, secondExponent, hsecond, hfull', hunpack', hsize'⟩ := hy
  change packed (UnpackedFloat.mul Format.binary64 x.toModel.unpack y.toModel.unpack) = _
  rw [hunpack, hunpack']
  unfold nearest UnpackedFloat.mul
  congr 1
  apply round_of_size
  · rw [← size_mul, hsize, hsize', size_mul, size_move]
    rfl
  · exact Nat.mul_pos hfirst.pos hsecond.pos
  · exact Nat.mul_pos (Nat.mul_pos hvalue hother) (Nat.two_pow_pos _)
  · exact le_targetExponent (hfull.trans (Nat.le_mul_of_pos_right _ hsecond.pos)) _
  · have hproduct : 0 < value * other := Nat.mul_pos hvalue hother
    exact le_targetExponent (by omega) _

/-- The quotient of whole values is found, if it is canonical. -/
theorem div_of_standsFor (hx : StandsFor x value) (hy : StandsFor y other)
    (h : Canonical mantissa exponent)
    (hsize : size value 0 = size mantissa exponent * size other 0) :
    x / y = packed (.finite .positive mantissa exponent h.pos) := by
  obtain ⟨first, firstExponent, hfirst, -, hunpack, hfirstSize⟩ := hx
  obtain ⟨second, secondExponent, hsecond, -, hunpack', hsecondSize⟩ := hy
  change packed (UnpackedFloat.div Format.binary64 x.toModel.unpack y.toModel.unpack) = _
  rw [hunpack, hunpack']
  rw [← hfirstSize, ← hsecondSize] at hsize
  rw [h.div hsize]

theorem ofScientific_whole (hpos : 0 < coefficient) (hplaces : places ≤ 2048) :
    UnpackedFloat.ofScientific Format.binary64 coefficient places =
      roundWithAccuracy Format.binary64 .positive (coefficient * 10 ^ places * 2 ^ 53) (-53)
        .exact := by
  have hmax : ¬(places : Int) > 2 ^ 11 := by omega
  have hmin : ¬(places : Int) < -(2 ^ 11 + coefficient.log2) := by omega
  have hsign : (0 : Int) ≤ places := Int.natCast_nonneg places
  have hproduct : coefficient <<< 53 * 10 ^ places = coefficient * 10 ^ places * 2 ^ 53 := by
    rw [Nat.shiftLeft_eq, Nat.mul_right_comm]
  unfold UnpackedFloat.ofScientific
  rw [dif_neg (Nat.ne_of_gt hpos), if_neg hmax, if_neg hmin, if_pos hsign, ← hproduct]
  rfl

theorem ofScientific_fraction (h : Canonical mantissa exponent) (hpos : 0 < coefficient)
    (hplaces : 0 < places) (hbound : places ≤ 2048)
    (hsize : size coefficient 0 = size mantissa exponent * size (10 ^ places) 0) :
    UnpackedFloat.ofScientific Format.binary64 coefficient (-places) =
      .finite .positive mantissa exponent h.pos := by
  have hmax : ¬-(places : Int) > 2 ^ 11 := by omega
  have hmin : ¬-(places : Int) < -(2 ^ 11 + coefficient.log2) := by omega
  have hsign : ¬(0 : Int) ≤ -places := by omega
  unfold UnpackedFloat.ofScientific
  rw [dif_neg (Nat.ne_of_gt hpos), if_neg hmax, if_neg hmin, if_neg hsign]
  simp only [Int.neg_neg, Int.toNat_natCast]
  exact h.div hsize _ _

/-- A whole decimal is read as the number that is nearest to its value. -/
theorem toFloat_whole (hpos : 0 < coefficient) (hplaces : places ≤ 2048) :
    Decimal.toFloat ⟨coefficient, places⟩ = nearest (coefficient * 10 ^ places) := by
  unfold Decimal.toFloat
  rw [if_pos (Int.natCast_nonneg places), Int.toNat_natCast]
  unfold Float.ofScientific
  split
  · next hfast =>
      exact mul_of_standsFor (standsFor_ofNat hpos hfast.1)
        (standsFor_power (Nat.lt_succ_of_le hfast.2))
  · unfold nearest packed
    rw [← ofScientific_whole hpos hplaces]
    rfl

theorem toFloat_zero (places : Nat) :
    Decimal.toFloat ⟨0, places⟩ = packed (.zero .positive) := by
  unfold Decimal.toFloat
  rw [if_pos (Int.natCast_nonneg places), Int.toNat_natCast]
  unfold Float.ofScientific
  split
  · next hfast =>
      have hzero : (0 : Nat).toUInt64.toFloat.toModel.unpack = .zero .positive := rfl
      have hplaces : places < Float.exactlyRepresentablePowersOfTen.size :=
        Nat.lt_succ_of_le hfast.2
      obtain ⟨mantissa, exponent, hpower, -, hunpack, -⟩ := standsFor_power hplaces
      simp only [Bool.false_eq_true, if_false]
      change packed (UnpackedFloat.mul Format.binary64 _
        Float.exactlyRepresentablePowersOfTen[places].toModel.unpack) = _
      rw [hzero, hunpack]
      rfl
  · rfl

theorem toFloat_multiplied (hplaces : places ≤ 2048) :
    Decimal.toFloat ⟨coefficient * 10 ^ places, 0⟩ = Decimal.toFloat ⟨coefficient, places⟩ := by
  rcases Nat.eq_zero_or_pos coefficient with rfl | hpos
  · rw [Nat.zero_mul, toFloat_zero]
    exact toFloat_zero 0
  have hproduct : 0 < coefficient * 10 ^ places :=
    Nat.mul_pos hpos (Nat.pow_pos (by decide))
  have hwhole : Decimal.toFloat ⟨coefficient * 10 ^ places, (0 : Nat)⟩ = _ :=
    toFloat_whole hproduct (Nat.zero_le _)
  rw [Nat.pow_zero, Nat.mul_one] at hwhole
  rw [toFloat_whole hpos hplaces]
  exact hwhole

theorem toFloat_fraction (h : Canonical mantissa exponent) (hpos : 0 < coefficient)
    (hplaces : 0 < places) (hbound : places ≤ 2048)
    (hsize : size coefficient 0 = size mantissa exponent * size (10 ^ places) 0) :
    Decimal.toFloat ⟨coefficient, -places⟩ =
      packed (.finite .positive mantissa exponent h.pos) := by
  have hsign : ¬(0 : Int) ≤ -places := by omega
  unfold Decimal.toFloat
  rw [if_neg hsign, Int.neg_neg, Int.toNat_natCast]
  unfold Float.ofScientific
  split
  · next hfast =>
      exact div_of_standsFor (standsFor_ofNat hpos hfast.1)
        (standsFor_power (Nat.lt_succ_of_le hfast.2)) h hsize
  · have hexponent : Int.negOfNat places = -(places : Int) := Int.negOfNat_eq
    simp only [if_true, hexponent]
    unfold packed
    rw [← ofScientific_fraction h hpos hplaces hbound hsize]
    rfl

/-- The decimal that is exactly a number is read as this number. -/
theorem toFloat_exactly (h : Canonical mantissa exponent) :
    (Decimal.exactly mantissa exponent).toFloat =
      packed (.finite .positive mantissa exponent h.pos) := by
  have hpos := h.pos
  unfold Decimal.exactly
  split
  · next hsign =>
      have hwhole : Decimal.toFloat ⟨mantissa * 2 ^ exponent.toNat, (0 : Nat)⟩ = _ :=
        toFloat_whole (Nat.mul_pos hpos (Nat.two_pow_pos _)) (Nat.zero_le _)
      have hmove : size (mantissa * 2 ^ exponent.toNat * 10 ^ 0 * 2 ^ 53) (-53) =
          size mantissa exponent := by
        rw [Nat.pow_zero, Nat.mul_one, size_move, size_move]
        congr 1
        omega
      have hmoved : 0 < mantissa * 2 ^ exponent.toNat := Nat.mul_pos hpos (Nat.two_pow_pos _)
      refine hwhole.trans ?_
      unfold nearest
      rw [h.round hmove (by omega) (le_targetExponent (by omega) _)]
  · next hsign =>
      have hleast := h.least
      have hexponent : exponent = -((-exponent).toNat : Int) := by omega
      have hsize : size (mantissa * 5 ^ (-exponent).toNat) 0 =
          size mantissa exponent * size (10 ^ (-exponent).toNat) 0 := by
        have hten : 10 ^ (-exponent).toNat = 5 ^ (-exponent).toNat * 2 ^ (-exponent).toNat := by
          rw [← Nat.mul_pow]
        rw [size_mul, hten, ← Nat.mul_assoc, size_move]
        congr 1
        omega
      rw [show (⟨mantissa * Nat.pow 5 (-exponent).toNat, exponent⟩ : Decimal) =
        ⟨mantissa * 5 ^ (-exponent).toNat, -((-exponent).toNat : Int)⟩ by rw [← hexponent]; rfl]
      exact toFloat_fraction h (Nat.mul_pos hpos (Nat.pow_pos (by decide))) (by omega) (by omega)
        hsize

end Bhasha.Number
