import Bhasha.Builtin.Text

/-!
# Places inside texts and lists

Every place at which an operation takes a text apart or writes into a list is inside: the bounds of
a slice are no greater than the length of the text, a text that is found ends before the end of
the other one, and a list is long enough before an item is written into it.
-/

namespace Bhasha

theorem Effect.getElem?_placeItem (items : Array Value) (position : Nat) (value : Value) :
    (placeItem items position value)[position]? = some value := by
  have hlength : position < (items ++ Array.replicate (position + 1 - items.size) Value.null).size := by
    rw [Array.size_append, Array.size_replicate]
    omega
  unfold placeItem
  rw [Array.getElem?_setIfInBounds_self, if_pos hlength]

namespace Builtin

theorem resolveBound_le (length : Nat) (bound : Int) : resolveBound length bound ≤ length := by
  unfold resolveBound
  by_cases hbound : bound < 0
  · rw [if_pos hbound]
    omega
  · rw [if_neg hbound]
    exact Nat.min_le_right _ _

theorem boundOf_le (store : Store) (length : Nat) (value : Value) :
    boundOf store length value ≤ length :=
  resolveBound_le length _

theorem occurrence?_le
    {needle text : List Char} {place : Nat} (h : occurrence? needle text = some place) :
    place + needle.length ≤ text.length := by
  induction text generalizing place with
  | nil =>
      cases needle with
      | nil =>
          cases h
          exact Nat.le_refl 0
      | cons c rest => cases h
  | cons c rest ih =>
      unfold occurrence? at h
      by_cases hprefix : needle.isPrefixOf (c :: rest) = true
      · rw [if_pos hprefix] at h
        cases h
        have hlength := (List.isPrefixOf_iff_prefix.mp hprefix).length_le
        omega
      · rw [if_neg hprefix] at h
        obtain ⟨later, hlater, rfl⟩ := Option.map_eq_some_iff.mp h
        have hlength := ih hlater
        rw [List.length_cons]
        omega

end Builtin

end Bhasha
