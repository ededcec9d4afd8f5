import Bhasha.Proofs.Number.Rounding

/-!
# Exact quotients

A quotient is computed to a few bits more than there is room for, and rounded from there.  If it
has a canonical mantissa and exponent the division leaves no remainder, and rounding finds them.
-/

namespace Bhasha.Number

open Float.Model Float.Model.UnpackedFloat

variable {mantissa first second : Nat} {exponent firstExponent secondExponent : Int}

theorem totalExponent_quotient_le
    (hsize : size first firstExponent = size mantissa exponent * size second secondExponent)
    (hfirst : 0 < first) :
    totalExponent first firstExponent - totalExponent second secondExponent ≤
      totalExponent mantissa exponent := by
  have hlow := @pow_le_size first firstExponent hfirst
  have hhigh := size_lt_pow mantissa exponent
  have hother := size_lt_pow second secondExponent
  have hpower : (2 : ℚ) ^ (first.log2 + firstExponent : Int) <
      2 ^ (totalExponent mantissa exponent + totalExponent second secondExponent) := by
    calc (2 : ℚ) ^ (first.log2 + firstExponent : Int)
        ≤ size mantissa exponent * size second secondExponent := hsize ▸ hlow
      _ < 2 ^ totalExponent mantissa exponent * 2 ^ totalExponent second secondExponent :=
        mul_lt_mul'' hhigh hother (size_nonneg _ _) (size_nonneg _ _)
      _ = _ := (zpow_add₀ (by norm_num) _ _).symm
  have hexponent := (zpow_lt_zpow_iff_right₀ (by norm_num)).mp hpower
  unfold totalExponent at hexponent ⊢
  omega

/-- The quotient of two numbers is found, if it is canonical. -/
theorem Canonical.div (h : Canonical mantissa exponent)
    (hsize : size first firstExponent = size mantissa exponent * size second secondExponent)
    (hfirst : 0 < first) (hsecond : 0 < second) :
    UnpackedFloat.div Format.binary64 (.finite .positive first firstExponent hfirst)
        (.finite .positive second secondExponent hsecond) =
      .finite .positive mantissa exponent h.pos := by
  have htotal := totalExponent_quotient_le hsize hfirst
  have haim := h.targetExponent
  rw [targetExponent_eq] at haim
  unfold UnpackedFloat.div divCore
  simp only [targetExponent_eq]
  generalize htarget : min (firstExponent - secondExponent)
    (max (totalExponent first firstExponent - totalExponent second secondExponent - 53) (-1074)) =
      target
  have hle : target ≤ exponent := by omega
  have hmoved : target ≤ firstExponent - secondExponent := by omega
  -- The dividend is the product of the divisor and a multiple of the mantissa.
  have hdividend : first <<< (firstExponent - secondExponent - target).toNat =
      mantissa * 2 ^ (exponent - target).toNat * second := by
    have hleft : size (first * 2 ^ (firstExponent - secondExponent - target).toNat)
        (target + secondExponent) = size first firstExponent := by
      rw [size_move]
      congr 1
      omega
    have hright : size (mantissa * 2 ^ (exponent - target).toNat * second)
        (target + secondExponent) = size mantissa exponent * size second secondExponent := by
      rw [← size_mul, size_move]
      congr 2
      omega
    rw [Nat.shiftLeft_eq, ← @size_inj _ _ (target + secondExponent), hleft, hright, hsize]
  rw [hdividend, Nat.mul_div_cancel _ hsecond, Nat.mul_mod_left]
  have hexact : accuracyOfFraction 0 second = .exact := rfl
  rw [hexact]
  have hfound : size (mantissa * 2 ^ (exponent - target).toNat) target =
      size mantissa exponent := by
    rw [size_move]
    congr 1
    omega
  have hpos : 0 < mantissa * 2 ^ (exponent - target).toNat :=
    Nat.mul_pos h.pos (Nat.two_pow_pos _)
  have hbound : target ≤ Format.binary64.targetExponent
      (totalExponent (mantissa * 2 ^ (exponent - target).toNat) target) := by
    have hexponent : target + ((exponent - target).toNat : Int) = exponent := by omega
    rw [totalExponent_move h.pos, hexponent, h.targetExponent]
    exact hle
  exact h.round hfound hpos hbound (.positive / .positive)

end Bhasha.Number
