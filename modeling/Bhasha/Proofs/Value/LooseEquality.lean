import Bhasha.Value.Conversion
import Bhasha.Proofs.Number.Order

/-!
# Loose equality

Loose equality converts booleans and texts before it compares.  It is nevertheless symmetric, and
no value differs from itself but the number that is not a number.
-/

namespace Bhasha

namespace Value

variable {left right : Value}

theorem equalsUncounted_comm (left right : Value) :
    left.equalsUncounted right = right.equalsUncounted left := by
  cases left with
  | number value =>
      cases right with
      | number other => exact Number.beq_comm value other
      | _ => rfl
  | text value =>
      cases right with
      | text other => exact BEq.comm
      | _ => rfl
  | list address =>
      cases right with
      | list other => exact BEq.comm
      | _ => rfl
  | record address =>
      cases right with
      | record other => exact BEq.comm
      | _ => rfl
  | boolean _ => cases right <;> rfl
  | null => cases right <;> rfl

/-- A boolean beside a value of another type counts as a number. -/
theorem looselyEquals_eq_of_not_boolean (h : ¬(left.type = .boolean ∧ right.type = .boolean)) :
    left.looselyEquals right = equalsUncounted left.countBoolean right.countBoolean := by
  cases left with
  | boolean value =>
      cases right with
      | boolean other => exact absurd ⟨rfl, rfl⟩ h
      | _ => rfl
  | _ => rfl

theorem looselyEquals_comm (left right : Value) :
    left.looselyEquals right = right.looselyEquals left := by
  by_cases h : left.type = .boolean ∧ right.type = .boolean
  · cases left with
    | boolean value =>
        cases right with
        | boolean other => exact BEq.comm
        | _ => cases h.2
    | _ => cases h.1
  · rw [looselyEquals_eq_of_not_boolean h, equalsUncounted_comm,
      looselyEquals_eq_of_not_boolean fun hboth => h hboth.symm]

theorem looselyEquals_self_iff (value : Value) :
    value.looselyEquals value = true ↔
      ∀ content, value = number content → content.isNaN = false := by
  cases value with
  | number content =>
      have hself : (number content).looselyEquals (number content) = !content.isNaN :=
        Number.beq_self content
      rw [hself, Bool.not_eq_true']
      exact ⟨fun h other hsame => number.inj hsame ▸ h, fun h => h content rfl⟩
  | text _ | boolean _ | list _ | record _ =>
      exact iff_of_true BEq.rfl fun _ hsame => nomatch hsame
  | null => exact iff_of_true rfl fun _ hsame => nomatch hsame

theorem list_looselyEquals_iff (address : Address) :
    (list address).looselyEquals right = true ↔ right = list address := by
  cases right with
  | list other =>
      have haddresses : (list address).looselyEquals (list other) = (address == other) := rfl
      rw [haddresses, beq_iff_eq, list.injEq, eq_comm]
  | _ => exact iff_of_false Bool.false_ne_true fun hsame => nomatch hsame

theorem record_looselyEquals_iff (address : Address) :
    (record address).looselyEquals right = true ↔ right = record address := by
  cases right with
  | record other =>
      have haddresses : (record address).looselyEquals (record other) = (address == other) := rfl
      rw [haddresses, beq_iff_eq, record.injEq, eq_comm]
  | _ => exact iff_of_false Bool.false_ne_true fun hsame => nomatch hsame

theorem null_looselyEquals_iff : null.looselyEquals right = true ↔ right = null := by
  cases right with
  | null => exact iff_of_true rfl rfl
  | _ => exact iff_of_false Bool.false_ne_true fun hsame => nomatch hsame

theorem boolean_looselyEquals (value : Bool) (h : right.type ≠ .boolean) :
    (boolean value).looselyEquals right = (number (booleanNumber value)).looselyEquals right := by
  rw [looselyEquals_eq_of_not_boolean fun hboth => h hboth.2,
    looselyEquals_eq_of_not_boolean fun hboth => h hboth.2]
  rfl

/-- Loose equality is symmetric, and reflexive on all that is a number or no number at all.  A
container and null equal only themselves, and a boolean compares with numbers and texts as one or
zero does. -/
theorem looselyEquals_consistent (left right : Value) :
    left.looselyEquals right = right.looselyEquals left ∧
    (left.looselyEquals left = true ↔ ∀ content, left = number content → content.isNaN = false) ∧
    (∀ address, (list address).looselyEquals right = true ↔ right = list address) ∧
    (∀ address, (record address).looselyEquals right = true ↔ right = record address) ∧
    (null.looselyEquals right = true ↔ right = null) ∧
    ∀ value, right.type = .number ∨ right.type = .text →
      (boolean value).looselyEquals right = (number (if value then 1 else 0)).looselyEquals right ∧
      right.looselyEquals (boolean value) =
        right.looselyEquals (number (if value then 1 else 0)) := by
  refine ⟨looselyEquals_comm left right, looselyEquals_self_iff left, list_looselyEquals_iff,
    record_looselyEquals_iff, null_looselyEquals_iff, fun value htype => ?_⟩
  have hcounted : (boolean value).looselyEquals right =
      (number (booleanNumber value)).looselyEquals right := by
    refine boolean_looselyEquals value fun hboolean => ?_
    rcases htype with h | h <;> rw [hboolean] at h <;> cases h
  refine ⟨hcounted, ?_⟩
  rw [looselyEquals_comm right, looselyEquals_comm right]
  exact hcounted

end Value

end Bhasha
