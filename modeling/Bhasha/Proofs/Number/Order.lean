import Bhasha.Number.Numeral
import Mathlib

/-!
# The order of numbers

Numbers are compared by sign, exponent and mantissa.  So every number has a place on a line, and two
numbers compare as their places do.  Both zeros are at the same place, and what is not a number has
none that counts: it compares with nothing.
-/

namespace Bhasha.Number

open Float.Model (UnpackedFloat)

/-- How two numbers compare, if both are numbers. -/
def order? (left right : Float) : Option Ordering :=
  left.toModel.compare right.toModel

/-- The place of an unpacked number.  The first part tells the infinities, the two signs and zero
apart, and below zero the exponent and the mantissa are turned round. -/
def placeOf : UnpackedFloat → ℤ ×ₗ ℤ ×ₗ ℤ
  | .infinity .negative => toLex (-2, toLex (0, 0))
  | .finite .negative mantissa exponent _ => toLex (-1, toLex (-exponent, -(mantissa : ℤ)))
  | .zero _ => toLex (0, toLex (0, 0))
  | .finite .positive mantissa exponent _ => toLex (1, toLex (exponent, (mantissa : ℤ)))
  | .infinity .positive => toLex (2, toLex (0, 0))
  | .notANumber => toLex (3, toLex (0, 0))

/-- The place of a number. -/
def place (x : Float) : ℤ ×ₗ ℤ ×ₗ ℤ :=
  placeOf x.toModel.unpack

variable {left right : Float}

theorem compare_cast (first second : ℕ) : compare (first : ℤ) second = compare first second := by
  rw [← cmp_eq_compare, ← cmp_eq_compare, Nat.strictMono_cast.cmp_map_eq]

theorem compare_neg (first second : ℤ) :
    compare (-first) (-second) = (compare first second).swap := by
  have hanti : StrictAnti fun value : ℤ => -value := fun _ _ => neg_lt_neg
  rw [← cmp_eq_compare, ← cmp_eq_compare, cmp_swap]
  exact hanti.cmp_map_eq first second

theorem compare_toLex {α β : Type} [LinearOrder α] [LinearOrder β] (first second : α)
    (firstRest secondRest : β) :
    compare (toLex (first, firstRest)) (toLex (second, secondRest)) =
      (compare first second).then (compare firstRest secondRest) :=
  rfl

theorem compare_placeOf {first second : UnpackedFloat} (hfirst : first.isNaN = false)
    (hsecond : second.isNaN = false) :
    first.compare second = some (compare (placeOf first) (placeOf second)) := by
  cases first with
  | notANumber => cases hfirst
  | infinity sign =>
      cases second with
      | notANumber => cases hsecond
      | infinity other => cases sign <;> cases other <;> rfl
      | zero other => cases sign <;> rfl
      | finite other _ _ _ => cases sign <;> cases other <;> rfl
  | zero sign =>
      cases second with
      | notANumber => cases hsecond
      | infinity other => cases other <;> rfl
      | zero other => rfl
      | finite other _ _ _ => cases other <;> rfl
  | finite sign mantissa exponent hpos =>
      cases second with
      | notANumber => cases hsecond
      | infinity other => cases sign <;> cases other <;> rfl
      | zero other => cases sign <;> rfl
      | finite other mantissa' exponent' hpos' =>
          cases sign with
          | positive =>
              cases other with
              | negative => rfl
              | positive =>
                  rw [placeOf, placeOf, compare_toLex, compare_toLex, compare_cast]
                  rfl
          | negative =>
              cases other with
              | positive => rfl
              | negative =>
                  have hexponent := compare_neg exponent exponent'
                  have hmantissa := compare_neg mantissa mantissa'
                  rw [placeOf, placeOf, compare_toLex, compare_toLex, hexponent, hmantissa,
                    compare_cast, ← Ordering.swap_then]
                  rfl

theorem order?_eq_place (hleft : left.isNaN = false) (hright : right.isNaN = false) :
    order? left right = some (compare (place left) (place right)) :=
  compare_placeOf hleft hright

theorem order?_of_isNaN_left (h : left.isNaN = true) (right : Float) :
    order? left right = none := by
  change left.toModel.unpack.isNaN = true at h
  change left.toModel.unpack.compare right.toModel.unpack = none
  cases hleft : left.toModel.unpack with
  | notANumber => rfl
  | _ => simp [hleft, UnpackedFloat.isNaN] at h

theorem order?_of_isNaN_right (left : Float) (h : right.isNaN = true) :
    order? left right = none := by
  change right.toModel.unpack.isNaN = true at h
  change left.toModel.unpack.compare right.toModel.unpack = none
  cases hright : right.toModel.unpack with
  | notANumber => cases left.toModel.unpack <;> rfl
  | _ => simp [hright, UnpackedFloat.isNaN] at h

theorem order?_eq_some_iff {ordering : Ordering} :
    order? left right = some ordering ↔
      left.isNaN = false ∧ right.isNaN = false ∧ compare (place left) (place right) = ordering := by
  constructor
  · intro h
    have hleft : left.isNaN = false := by
      by_contra hnan
      rw [order?_of_isNaN_left (Bool.not_eq_false _ ▸ hnan)] at h
      cases h
    have hright : right.isNaN = false := by
      by_contra hnan
      rw [order?_of_isNaN_right left (Bool.not_eq_false _ ▸ hnan)] at h
      cases h
    rw [order?_eq_place hleft hright] at h
    exact ⟨hleft, hright, Option.some.inj h⟩
  · rintro ⟨hleft, hright, rfl⟩
    exact order?_eq_place hleft hright

theorem order?_swap (left right : Float) :
    order? right left = (order? left right).map Ordering.swap := by
  ext ordering
  rw [Option.map_eq_some_iff]
  constructor
  · intro h
    obtain ⟨hright, hleft, hplaces⟩ := order?_eq_some_iff.mp h
    refine ⟨ordering.swap, order?_eq_some_iff.mpr ⟨hleft, hright, ?_⟩, Ordering.swap_swap⟩
    rw [← hplaces, Std.OrientedOrd.eq_swap]
  · rintro ⟨ordering, h, rfl⟩
    obtain ⟨hleft, hright, hplaces⟩ := order?_eq_some_iff.mp h
    refine order?_eq_some_iff.mpr ⟨hright, hleft, ?_⟩
    rw [← hplaces, Std.OrientedOrd.eq_swap]

theorem order?_self (h : left.isNaN = false) : order? left left = some .eq :=
  order?_eq_some_iff.mpr ⟨h, h, compare_eq_iff_eq.mpr rfl⟩

theorem order?_trans {middle : Float} (hfirst : order? left middle = some .lt)
    (hsecond : order? middle right = some .lt) : order? left right = some .lt := by
  obtain ⟨hleft, -, hbelow⟩ := order?_eq_some_iff.mp hfirst
  obtain ⟨-, hright, habove⟩ := order?_eq_some_iff.mp hsecond
  rw [compare_lt_iff_lt] at hbelow habove
  exact order?_eq_some_iff.mpr ⟨hleft, hright, compare_lt_iff_lt.mpr (hbelow.trans habove)⟩

theorem beq_eq_order? (left right : Float) : (left == right) = (order? left right == some .eq) :=
  rfl

theorem lt_iff_order? : left < right ↔ order? left right = some .lt :=
  decide_eq_true_iff.trans beq_iff_eq

theorem le_iff_order? : left ≤ right ↔ (order? left right).any Ordering.isLE = true :=
  decide_eq_true_iff

theorem beq_comm (left right : Float) : (left == right) = (right == left) := by
  rw [beq_eq_order?, beq_eq_order?, order?_swap left right]
  cases order? left right with
  | none => rfl
  | some ordering => cases ordering <;> rfl

theorem beq_self (x : Float) : (x == x) = !x.isNaN := by
  cases h : x.isNaN with
  | true => rw [beq_eq_order?, order?_of_isNaN_left h]; rfl
  | false => rw [beq_eq_order?, order?_self h]; rfl

end Bhasha.Number
