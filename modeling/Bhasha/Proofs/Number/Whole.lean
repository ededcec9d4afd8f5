import Bhasha.Number.Integer
import Bhasha.Proofs.Number.Decimal

/-!
# Whole numbers as numbers

A natural number up to the greatest power of two below which all whole numbers are numbers is a
number exactly, and comes back when the number is cut to a whole one.  A greater one is rounded, but
it never becomes negative.  What a number is cut to fits into sixty-four bits.
-/

namespace Bhasha.Number

open Float.Model Float.Model.UnpackedFloat

variable {value : Nat}

theorem leastWhole_eq : leastWhole = -9223372036854775808 := rfl

theorem greatestWhole_eq : greatestWhole = 9223372036854775807 := rfl

/-- The number for a natural number is found by rounding it once. -/
theorem ofNat_eq_nearest (hpos : 0 < value) : ofNat value = nearest value := by
  have hwhole : Decimal.toFloat ⟨value, (0 : Nat)⟩ = _ := toFloat_whole hpos (Nat.zero_le 2048)
  rw [Nat.pow_zero, Nat.mul_one] at hwhole
  exact hwhole

theorem exists_canonical (hpos : 0 < value) (hle : value ≤ 2 ^ 53) :
    ∃ mantissa exponent, Canonical mantissa exponent ∧ size mantissa exponent = size value 0 := by
  rcases Nat.lt_or_eq_of_le hle with hlt | rfl
  · obtain ⟨mantissa, exponent, hcanonical, -, -, hsize⟩ := standsFor_ofNat hpos hlt
    exact ⟨mantissa, exponent, hcanonical, hsize⟩
  · refine ⟨2 ^ 52, 1, ⟨by decide, by decide, by decide, by decide, .inl (Nat.le_refl _)⟩, ?_⟩
    exact (size_move (2 ^ 52) 1 0).symm

theorem exists_unpack_ofNat (hpos : 0 < value) (hle : value ≤ 2 ^ 53) :
    ∃ mantissa exponent, ∃ h : 0 < mantissa,
      (ofNat value).toModel.unpack = .finite .positive mantissa exponent h ∧
        size mantissa exponent = size value 0 := by
  obtain ⟨mantissa, exponent, hcanonical, hsize⟩ := exists_canonical hpos hle
  refine ⟨mantissa, exponent, hcanonical.pos, ?_, hsize⟩
  have hmoved : size (value * 2 ^ 53) (-53) = size mantissa exponent := by
    rw [hsize, size_move]
    rfl
  rw [ofNat_eq_nearest hpos, nearest,
    hcanonical.round hmoved (by omega) (le_targetExponent (by omega) _)]
  exact hcanonical.unpack_model .positive

/-- A natural number that is not too large is not changed by way of a number. -/
theorem truncate_ofNat (hle : value ≤ 2 ^ 53) : truncate (ofNat value) = value := by
  rcases Nat.eq_zero_or_pos value with rfl | hpos
  · rfl
  · obtain ⟨mantissa, exponent, hmantissa, hunpack, hsize⟩ := exists_unpack_ofNat hpos hle
    have hcut : mantissa * 2 ^ exponent.toNat / 2 ^ (-exponent).toNat = value := by
      rcases Int.le_total 0 exponent with hexponent | hexponent
      · have hwhole := eq_mul_of_size hsize.symm hexponent
        have hdivisor : (-exponent).toNat = 0 := Int.toNat_of_nonpos (by omega)
        rw [Int.sub_zero] at hwhole
        rw [hdivisor, Nat.pow_zero, Nat.div_one, ← hwhole]
      · have hmoved := eq_mul_of_size hsize hexponent
        have hfactor : exponent.toNat = 0 := Int.toNat_of_nonpos hexponent
        rw [Int.zero_sub] at hmoved
        rw [hfactor, Nat.pow_zero, Nat.mul_one, hmoved,
          Nat.mul_div_cancel _ (Nat.two_pow_pos _)]
    have hwithin : (value : Int) ≤ 9007199254740992 := by exact_mod_cast hle
    simp only [truncate, hunpack, signed, leastWhole_eq, greatestWhole_eq]
    rw [show mantissa * Nat.pow 2 exponent.toNat / Nat.pow 2 (-exponent).toNat = value from hcut]
    omega

/-- The bit of a number that is set in front of a minus. -/
def signBit (x : Float) : BitVec 1 :=
  @unpackSign Format.binary64 x.toModel.toBits.toBitVec

theorem signBit_zero (sign : Sign) : signBit (packed (.zero sign)) = sign.toBitVec :=
  unpackSign_packComponents _ _ _

theorem signBit_finite (sign : Sign) (mantissa : Nat) (exponent : Int) (hpos : 0 < mantissa) :
    signBit (packed (.finite sign mantissa exponent hpos)) = sign.toBitVec := by
  change unpackSign (UnpackedFloat.pack Format.binary64 _) = _
  unfold UnpackedFloat.pack
  dsimp only
  split
  · exact unpackSign_packComponents _ _ _
  · split <;> exact unpackSign_packComponents _ _ _

theorem signBit_nearest (value : Nat) : signBit (nearest value) = Sign.positive.toBitVec := by
  unfold nearest roundWithAccuracy
  dsimp only
  split
  · exact signBit_zero _
  · exact signBit_finite _ _ _ _

theorem ofNat_ne_neg_one (value : Nat) : ofNat value ≠ -1 := by
  rcases Nat.eq_zero_or_pos value with rfl | hpos
  · decide
  · intro hsame
    have hsign := signBit_nearest value
    rw [← ofNat_eq_nearest hpos, hsame] at hsign
    exact absurd hsign (by decide)

end Bhasha.Number
