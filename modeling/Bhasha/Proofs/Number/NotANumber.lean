import Bhasha.Number.Numeral
import Bhasha.Proofs.Number.Decimal

/-!
# What is not a number

Packing keeps apart what is a number and what is not, however a number is rounded.  A product and a
quotient of finite numbers are rounded, so the number that is read from a decimal is always a
number, be it an infinite one.
-/

namespace Bhasha.Number

open Float.Model Float.Model.UnpackedFloat

theorem isNaN_of_exponent {bits : BitVec 64}
    (h : @unpackExponent Format.binary64 bits ≠ -1#11) :
    (UnpackedFloat.unpack Format.binary64 bits).isNaN = false := by
  unfold UnpackedFloat.unpack
  rw [if_neg h]
  split
  · split <;> rfl
  · rfl

/-- Packing may round a number to zero or to an infinity, but not to what is not a number. -/
theorem isNaN_unpack_pack (number : UnpackedFloat) :
    (UnpackedFloat.unpack Format.binary64 (UnpackedFloat.pack Format.binary64 number)).isNaN =
      number.isNaN := by
  cases number with
  | notANumber => rfl
  | infinity sign => cases sign <;> rfl
  | zero sign => cases sign <;> rfl
  | finite sign mantissa exponent hpos =>
      have hroom : ¬2 ^ 11 ≤ (exponent + 1023 + 52).toNat + 1 →
          BitVec.ofNat 11 (exponent + 1023 + 52).toNat ≠ -1#11 := by
        intro hsmall hlast
        have hvalue := congrArg BitVec.toNat hlast
        rw [BitVec.toNat_ofNat, Nat.mod_eq_of_lt (by omega)] at hvalue
        change _ = 2047 at hvalue
        omega
      unfold UnpackedFloat.pack
      simp only
      split
      · cases sign <;> rfl
      · next hsmall =>
          split
          · apply isNaN_of_exponent
            rw [unpackExponent_packComponents]
            exact hroom hsmall
          · apply isNaN_of_exponent
            rw [unpackExponent_packComponents]
            decide

theorem isNaN_packed (number : UnpackedFloat) : (packed number).isNaN = number.isNaN :=
  isNaN_unpack_pack number

theorem isNaN_neg (x : Float) : (-x).isNaN = x.isNaN := by
  have hpacked : (-x).isNaN = x.toModel.unpack.neg.isNaN := isNaN_unpack_pack _
  have hunpacked : x.isNaN = x.toModel.unpack.isNaN := rfl
  rw [hpacked, hunpacked]
  cases x.toModel.unpack <;> rfl

theorem isNaN_round (sign : Sign) (mantissa : Nat) (exponent : Int) (accuracy : Accuracy) :
    (roundWithAccuracy Format.binary64 sign mantissa exponent accuracy).isNaN = false := by
  unfold roundWithAccuracy
  simp only
  split <;> rfl

/-- The unpacked numbers that are not infinite. -/
def IsFinite : UnpackedFloat → Prop
  | .zero _ | .finite _ _ _ _ => True
  | .infinity _ | .notANumber => False

theorem isNaN_unpacked_mul {number : UnpackedFloat} (h : IsFinite number) (sign : Sign)
    (mantissa : Nat) (exponent : Int) (hpos : 0 < mantissa) :
    (UnpackedFloat.mul Format.binary64 number (.finite sign mantissa exponent hpos)).isNaN =
      false := by
  cases number with
  | zero _ => rfl
  | finite _ _ _ _ => exact isNaN_round _ _ _ _
  | infinity _ | notANumber => exact h.elim

theorem isNaN_unpacked_div {number : UnpackedFloat} (h : IsFinite number) (sign : Sign)
    (mantissa : Nat) (exponent : Int) (hpos : 0 < mantissa) :
    (UnpackedFloat.div Format.binary64 number (.finite sign mantissa exponent hpos)).isNaN =
      false := by
  cases number with
  | zero _ => rfl
  | finite _ _ _ _ => exact isNaN_round _ _ _ _
  | infinity _ | notANumber => exact h.elim

theorem isNaN_unpacked_ofScientific (coefficient : Nat) (exponent : Int) :
    (UnpackedFloat.ofScientific Format.binary64 coefficient exponent).isNaN = false := by
  have hwhole : ∀ {mantissa : Nat} {exponent : Int} (hpos : 0 < mantissa),
      IsFinite (.finite .positive mantissa exponent hpos) := fun _ => trivial
  unfold UnpackedFloat.ofScientific
  split
  · rfl
  · split
    · rfl
    · split
      · rfl
      · split
        · exact isNaN_unpacked_mul (hwhole _) _ _ _ _
        · exact isNaN_unpacked_div (hwhole _) _ _ _ _

variable {x y : Float} {value : Nat}

theorem isNaN_mul (hx : IsFinite x.toModel.unpack) (hy : StandsFor y value) :
    (x * y).isNaN = false := by
  obtain ⟨mantissa, exponent, hcanonical, -, hunpack, -⟩ := hy
  have hproduct : (x * y).isNaN =
      (UnpackedFloat.mul Format.binary64 x.toModel.unpack y.toModel.unpack).isNaN :=
    isNaN_unpack_pack _
  rw [hproduct, hunpack]
  exact isNaN_unpacked_mul hx .positive mantissa exponent hcanonical.pos

theorem isNaN_div (hx : IsFinite x.toModel.unpack) (hy : StandsFor y value) :
    (x / y).isNaN = false := by
  obtain ⟨mantissa, exponent, hcanonical, -, hunpack, -⟩ := hy
  have hquotient : (x / y).isNaN =
      (UnpackedFloat.div Format.binary64 x.toModel.unpack y.toModel.unpack).isNaN :=
    isNaN_unpack_pack _
  rw [hquotient, hunpack]
  exact isNaN_unpacked_div hx .positive mantissa exponent hcanonical.pos

theorem isFinite_ofNat (hlt : value < 2 ^ 53) :
    IsFinite value.toUInt64.toFloat.toModel.unpack := by
  rcases Nat.eq_zero_or_pos value with rfl | hpos
  · trivial
  · obtain ⟨mantissa, exponent, _, _, hunpack, _⟩ := standsFor_ofNat hpos hlt
    rw [hunpack]
    trivial

theorem isNaN_ofScientific (coefficient : Nat) (fraction : Bool) (places : Nat) :
    (Float.ofScientific coefficient fraction places).isNaN = false := by
  unfold Float.ofScientific
  split
  · next hfast =>
      have hcoefficient := isFinite_ofNat hfast.1
      have hpower := standsFor_power (Nat.lt_succ_of_le hfast.2)
      cases fraction with
      | true => exact isNaN_div hcoefficient hpower
      | false => exact isNaN_mul hcoefficient hpower
  · exact (isNaN_packed _).trans (isNaN_unpacked_ofScientific coefficient _)

theorem isNaN_toFloat (decimal : Decimal) : decimal.toFloat.isNaN = false := by
  unfold Decimal.toFloat
  split
  · exact isNaN_ofScientific _ _ _
  · exact isNaN_ofScientific _ _ _

theorem isNaN_nan : nan.isNaN = true := by
  decide +kernel

theorem isNaN_infinity : infinity.isNaN = false := by
  decide +kernel

end Bhasha.Number
