import Bhasha.Proofs.Number.Canonical

/-!
# Rounding what needs no rounding

Rounding sees a mantissa and an exponent, but it only depends on the size that they stand for.
A size that has a canonical mantissa and exponent is rounded to these.
-/

namespace Bhasha.Number

open Float.Model Float.Model.UnpackedFloat

/-- What a mantissa and an exponent stand for. -/
def size (mantissa : Nat) (exponent : Int) : ℚ :=
  mantissa * 2 ^ exponent

section Size

variable {mantissa first second : Nat} {exponent firstExponent secondExponent : Int}

theorem size_nonneg (mantissa : Nat) (exponent : Int) : 0 ≤ size mantissa exponent :=
  mul_nonneg (Nat.cast_nonneg mantissa) (zpow_nonneg (by norm_num) exponent)

theorem size_mul :
    size first firstExponent * size second secondExponent =
      size (first * second) (firstExponent + secondExponent) := by
  unfold size
  rw [zpow_add₀ (by norm_num), Nat.cast_mul]
  ring

theorem size_move (mantissa count : Nat) (exponent : Int) :
    size (mantissa * 2 ^ count) exponent = size mantissa (exponent + count) := by
  unfold size
  rw [zpow_add₀ (by norm_num), zpow_natCast, Nat.cast_mul, Nat.cast_pow, Nat.cast_ofNat]
  ring

theorem size_inj : size first exponent = size second exponent ↔ first = second := by
  have hpower : (2 : ℚ) ^ exponent ≠ 0 := zpow_ne_zero _ (by norm_num)
  unfold size
  rw [mul_left_inj' hpower, Nat.cast_inj]

theorem eq_mul_of_size (h : size first firstExponent = size second secondExponent)
    (hle : firstExponent ≤ secondExponent) :
    first = second * 2 ^ (secondExponent - firstExponent).toNat := by
  have hexponent : secondExponent =
      firstExponent + ((secondExponent - firstExponent).toNat : Int) := by omega
  rw [hexponent, ← size_move, size_inj] at h
  exact h

theorem pow_le_size (hpos : 0 < mantissa) :
    (2 : ℚ) ^ (mantissa.log2 + exponent : Int) ≤ size mantissa exponent := by
  have hself : (2 ^ mantissa.log2 : Nat) ≤ mantissa := Nat.log2_self_le (Nat.ne_of_gt hpos)
  have hcast : (2 : ℚ) ^ mantissa.log2 ≤ mantissa := by exact_mod_cast hself
  unfold size
  rw [zpow_add₀ (by norm_num), zpow_natCast]
  exact mul_le_mul_of_nonneg_right hcast (zpow_nonneg (by norm_num) _)

theorem size_lt_pow (mantissa : Nat) (exponent : Int) :
    size mantissa exponent < (2 : ℚ) ^ (totalExponent mantissa exponent) := by
  have hself : mantissa < (2 ^ (mantissa.log2 + 1) : Nat) := Nat.lt_log2_self
  have hcast : (mantissa : ℚ) < 2 ^ (mantissa.log2 + 1) := by exact_mod_cast hself
  unfold size totalExponent
  rw [zpow_add₀ (by norm_num)]
  exact mul_lt_mul_of_pos_right (by exact_mod_cast hcast) (zpow_pos (by norm_num) _)

end Size

section Round

variable {mantissa other count : Nat} {exponent otherExponent : Int}

theorem shiftRight_succ (extended : ExtendedMantissa) (count : Nat) :
    extended >>> (count + 1) = extended.shiftRightOne >>> count := by
  induction count with
  | zero => rfl
  | succ count ih =>
      change (extended >>> (count + 1)).shiftRightOne = _
      rw [ih]
      rfl

/-- The zeros at the end of a mantissa are shifted out without a trace. -/
theorem shiftRight_exact (mantissa count more : Nat) :
    (ExtendedMantissa.mk (mantissa * 2 ^ count) false false) >>> (count + more) =
      (ExtendedMantissa.mk mantissa false false) >>> more := by
  induction count with
  | zero => rw [Nat.zero_add, Nat.pow_zero, Nat.mul_one]
  | succ count ih =>
      have hhalf : (ExtendedMantissa.mk (mantissa * 2 ^ (count + 1)) false false).shiftRightOne =
          ExtendedMantissa.mk (mantissa * 2 ^ count) false false := by
        rw [Nat.pow_succ, ← Nat.mul_assoc, ExtendedMantissa.shiftRightOne]
        simp
      rw [Nat.add_right_comm, shiftRight_succ, hhalf, ih]

theorem totalExponent_move (hpos : 0 < mantissa) (count : Nat) (exponent : Int) :
    totalExponent (mantissa * 2 ^ count) exponent = totalExponent mantissa (exponent + count) := by
  have hlog : (mantissa * 2 ^ count).log2 = mantissa.log2 + count := by
    induction count with
    | zero => simp
    | succ count ih =>
        have hne : mantissa * 2 ^ count ≠ 0 :=
          Nat.mul_ne_zero (Nat.ne_of_gt hpos) (Nat.ne_of_gt (Nat.two_pow_pos count))
        rw [Nat.pow_succ, ← Nat.mul_assoc, Nat.mul_comm, Nat.log2_two_mul hne, ih]
        rfl
  unfold totalExponent
  rw [hlog]
  push_cast
  ring

theorem shiftToTargetExponent_move (hpos : 0 < mantissa) (count : Nat)
    (h : exponent + count ≤
      Format.binary64.targetExponent (totalExponent mantissa (exponent + count))) :
    shiftToTargetExponent Format.binary64 (mantissa * 2 ^ count) exponent .exact =
      shiftToTargetExponent Format.binary64 mantissa (exponent + count) .exact := by
  unfold shiftToTargetExponent
  rw [totalExponent_move hpos]
  generalize Format.binary64.targetExponent (totalExponent mantissa (exponent + count)) = target at h ⊢
  have hcount : (target - exponent).toNat = count + (target - (exponent + count)).toNat := by
    omega
  unfold shiftToExponent
  simp only [ExtendedMantissa.ofMantissaAndAccuracy, hcount, shiftRight_exact]
  congr 1
  push_cast
  ring

/-- Rounding only depends on the size, if there are no bits to be filled up. -/
theorem round_of_size (hsize : size mantissa exponent = size other otherExponent)
    (hpos : 0 < mantissa) (hother : 0 < other)
    (htarget : exponent ≤ Format.binary64.targetExponent (totalExponent mantissa exponent))
    (htargetOther : otherExponent ≤
      Format.binary64.targetExponent (totalExponent other otherExponent)) (sign : Sign) :
    roundWithAccuracy Format.binary64 sign mantissa exponent .exact =
      roundWithAccuracy Format.binary64 sign other otherExponent .exact := by
  have hmoved : ∀ {low : Nat} {lowExponent : Int} {high : Nat} {highExponent : Int},
      size low lowExponent = size high highExponent → 0 < high → lowExponent ≤ highExponent →
      highExponent ≤ Format.binary64.targetExponent (totalExponent high highExponent) →
      roundWithAccuracy Format.binary64 sign low lowExponent .exact =
        roundWithAccuracy Format.binary64 sign high highExponent .exact := by
    intro low lowExponent high highExponent hsame hhigh hle haim
    have hexponent : highExponent = lowExponent + ((highExponent - lowExponent).toNat : Int) := by
      omega
    have hshift := shiftToTargetExponent_move hhigh (highExponent - lowExponent).toNat
      (by rwa [← hexponent])
    rw [eq_mul_of_size hsame hle]
    unfold roundWithAccuracy
    rw [hshift, ← hexponent]
  rcases Int.le_total exponent otherExponent with hle | hle
  · exact hmoved hsize hother hle htargetOther
  · exact (hmoved hsize.symm hpos hle htarget).symm

theorem le_targetExponent (hfull : 2 ^ 52 ≤ mantissa) (exponent : Int) :
    exponent ≤ Format.binary64.targetExponent (totalExponent mantissa exponent) := by
  have hlog : 52 ≤ mantissa.log2 := (Nat.le_log2 (by omega)).mpr hfull
  rw [targetExponent_eq, totalExponent]
  omega

theorem Canonical.round_self (h : Canonical mantissa exponent) (sign : Sign) :
    roundWithAccuracy Format.binary64 sign mantissa exponent .exact =
      .finite sign mantissa exponent h.pos := by
  have hshift (extended : ExtendedMantissa) : extended >>> (0 : Nat) = extended := rfl
  simp [roundWithAccuracy, shiftToTargetExponent, shiftToExponent, h.targetExponent, hshift,
    ExtendedMantissa.ofMantissaAndAccuracy, ExtendedMantissa.roundedMantissa,
    ExtendedMantissa.accuracy, Accuracy.roundToNearestEven, Nat.ne_of_gt h.pos]

theorem Canonical.round (h : Canonical mantissa exponent)
    (hsize : size other otherExponent = size mantissa exponent) (hother : 0 < other)
    (htarget : otherExponent ≤
      Format.binary64.targetExponent (totalExponent other otherExponent)) (sign : Sign) :
    roundWithAccuracy Format.binary64 sign other otherExponent .exact =
      .finite sign mantissa exponent h.pos := by
  rw [← h.round_self sign]
  exact round_of_size hsize hother h.pos htarget (Int.le_of_eq h.targetExponent.symm) sign

end Round

end Bhasha.Number
