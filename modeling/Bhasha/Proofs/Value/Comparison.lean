import Bhasha.Value.Operation
import Bhasha.Proofs.Text.Order
import Bhasha.Proofs.Value.LooseEquality

/-!
# The operators of comparison

Two numbers and two texts compare at most one way, and every operator of order asks whether that way
is one that it admits.  Loose equality goes its own way, but on the same operands it agrees.
-/

namespace Bhasha

/-- How two values compare, if they are of one ordered type and both count. -/
def Value.order? : Value → Value → Option Ordering
  | .number left, .number right => Number.order? left right
  | .text left, .text right => some (compare left right)
  | _, _ => none

/-- Whether an operator asks for the order of its operands. -/
def BinaryOp.isOrder : BinaryOp → Bool
  | .less | .lessEqual | .greater | .greaterEqual => true
  | .equal | .notEqual | .add | .subtract | .multiply | .divide | .modulo => false

/-- The ways to compare with which an operator holds. -/
def BinaryOp.admits : BinaryOp → Ordering → Bool
  | .less, ordering => ordering == .lt
  | .lessEqual, ordering => ordering != .gt
  | .greater, ordering => ordering == .gt
  | .greaterEqual, ordering => ordering != .lt
  | .equal, ordering => ordering == .eq
  | .notEqual, ordering => ordering != .eq
  | .add, _ | .subtract, _ | .multiply, _ | .divide, _ | .modulo, _ => false

/-- Two texts, or two numbers that are numbers. -/
inductive Value.Comparable : Value → Value → Prop
  | numbers {left right : Float} (hleft : left.isNaN = false) (hright : right.isNaN = false) :
      Comparable (.number left) (.number right)
  | texts (left right : String) : Comparable (.text left) (.text right)

/-- Whether the values of a type are ordered. -/
def ValueType.isOrdered : ValueType → Bool
  | .number | .text => true
  | .boolean | .null | .list | .record => false

namespace Value

variable {left middle right : Value} {ordering : Ordering}

theorem order?_swap (left right : Value) :
    order? right left = (order? left right).map Ordering.swap := by
  cases left with
  | number value =>
      cases right with
      | number other => exact Number.order?_swap value other
      | _ => rfl
  | text value =>
      cases right with
      | text other => exact congrArg some Std.OrientedOrd.eq_swap
      | _ => rfl
  | _ => cases right <;> rfl

theorem order?_trans (hfirst : order? left middle = some .lt)
    (hsecond : order? middle right = some .lt) : order? left right = some .lt := by
  cases left with
  | number first =>
      cases middle with
      | number second =>
          cases right with
          | number third => exact Number.order?_trans hfirst hsecond
          | _ => cases hsecond
      | _ => cases hfirst
  | text first =>
      cases middle with
      | text second =>
          cases right with
          | text third =>
              have hbelow : first < second := compare_lt_iff_lt.mp (Option.some.inj hfirst)
              have habove : second < third := compare_lt_iff_lt.mp (Option.some.inj hsecond)
              exact congrArg some (compare_lt_iff_lt.mpr (hbelow.trans habove))
          | _ => cases hsecond
      | _ => cases hfirst
  | _ => cases hfirst

theorem Comparable.exists_order? (h : Comparable left right) :
    ∃ ordering, order? left right = some ordering := by
  cases h with
  | numbers hleft hright => exact ⟨_, Number.order?_eq_place hleft hright⟩
  | texts left right => exact ⟨_, rfl⟩

theorem type_of_order? (h : order? left right = some ordering) :
    left.type = right.type ∧ left.type.isOrdered = true := by
  cases left with
  | number value =>
      cases right with
      | number other => exact ⟨rfl, rfl⟩
      | _ => cases h
  | text value =>
      cases right with
      | text other => exact ⟨rfl, rfl⟩
      | _ => cases h
  | _ => cases h

/-- On operands that compare, loose equality and order agree. -/
theorem looselyEquals_of_order? (h : order? left right = some ordering) :
    left.looselyEquals right = (ordering == .eq) := by
  cases left with
  | number value =>
      cases right with
      | number other =>
          have hequal : (number value).looselyEquals (number other) =
              (Number.order? value other == some .eq) := Number.beq_eq_order? value other
          rw [hequal, show Number.order? value other = some ordering from h]
          cases ordering <;> rfl
      | _ => cases h
  | text value =>
      cases right with
      | text other =>
          cases h
          have hequal : (text value).looselyEquals (text other) = (value == other) := rfl
          rw [hequal, Bool.eq_iff_iff, beq_iff_eq, beq_iff_eq, compare_eq_iff_eq]
      | _ => cases h
  | _ => cases h

theorem looselyEquals_nan {content : Float} (hnan : content.isNaN = true) (value : Value) :
    (number content).looselyEquals value = false := by
  have hbeq : ∀ other, (content == other) = false := by
    intro other
    rw [Number.beq_eq_order?, Number.order?_of_isNaN_left hnan]
    rfl
  cases value with
  | number other => exact hbeq other
  | text spelled => exact hbeq (Number.parse spelled)
  | boolean other => exact hbeq (booleanNumber other)
  | null | list _ | record _ => rfl

end Value

namespace BinaryOp

variable {store : Store} {left right : Value} {op : BinaryOp} {line : Nat}

theorem any_swap {mirrored : BinaryOp}
    (h : ∀ ordering, op.admits ordering.swap = mirrored.admits ordering)
    (order : Option Ordering) :
    (order.map Ordering.swap).any op.admits = order.any mirrored.admits := by
  cases order with
  | none => rfl
  | some ordering => exact h ordering

theorem orderNumbers_eq (hop : op.isOrder = true) (left right : Float) :
    op.orderNumbers left right = (Number.order? left right).any op.admits := by
  have hless : ∀ left right : Float,
      decide (left < right) = (Number.order? left right).any (· == .lt) := by
    intro left right
    rw [Bool.eq_iff_iff, decide_eq_true_iff, Number.lt_iff_order?]
    cases Number.order? left right <;> simp
  have hlessEqual : ∀ left right : Float,
      decide (left ≤ right) = (Number.order? left right).any (· != .gt) := by
    intro left right
    rw [Bool.eq_iff_iff, decide_eq_true_iff, Number.le_iff_order?]
    cases Number.order? left right with
    | none => exact Iff.rfl
    | some ordering => cases ordering <;> decide
  cases op with
  | less => exact hless left right
  | lessEqual => exact hlessEqual left right
  | greater =>
      apply (hless right left).trans
      rw [Number.order?_swap left right]
      exact @any_swap less greater (by decide) _
  | greaterEqual =>
      apply (hlessEqual right left).trans
      rw [Number.order?_swap left right]
      exact @any_swap lessEqual greaterEqual (by decide) _
  | _ => cases hop

theorem orderTexts_eq (hop : op.isOrder = true) (left right : String) :
    op.orderTexts left right = op.admits (compare left right) := by
  have hless := @compare_lt_iff_lt String _ left right
  have hgreater := @compare_gt_iff_gt String _ left right
  cases op with
  | less | lessEqual | greater | greaterEqual =>
      simp only [orderTexts, admits, ← hless, ← hgreater]
      cases compare left right <;> rfl
  | _ => cases hop

theorem apply_eq_applyComparison (hop : op.isOrder = true) :
    apply store op left right line = op.applyComparison left right line := by
  cases op with
  | less | lessEqual | greater | greaterEqual => rfl
  | _ => cases hop

/-- What an operator of order gives for operands of one ordered type. -/
theorem apply_order (hop : op.isOrder = true) (htype : left.type = right.type)
    (hordered : left.type.isOrdered = true) :
    apply store op left right line = .ok (.boolean ((left.order? right).any op.admits)) := by
  rw [apply_eq_applyComparison hop]
  cases left with
  | number value =>
      cases right with
      | number other =>
          have hnumbers := orderNumbers_eq hop value other
          cases op with
          | less | lessEqual | greater | greaterEqual =>
              exact congrArg (fun holds => Except.ok (Value.boolean holds)) hnumbers
          | _ => cases hop
      | _ => cases htype
  | text value =>
      cases right with
      | text other =>
          have htexts := orderTexts_eq hop value other
          cases op with
          | less | lessEqual | greater | greaterEqual =>
              exact congrArg (fun holds => Except.ok (Value.boolean holds)) htexts
          | _ => cases hop
      | _ => cases htype
  | _ => cases hordered

/-- What an operator of order gives for all other operands. -/
theorem apply_order_misfit (hop : op.isOrder = true)
    (hmisfit : ¬(left.type = right.type ∧ left.type.isOrdered = true)) :
    apply store op left right line =
      .error (.ofType (.incomparable op left.type right.type) line) := by
  rw [apply_eq_applyComparison hop]
  cases op with
  | less | lessEqual | greater | greaterEqual =>
      cases left with
      | number value =>
          cases right with
          | number other => exact absurd ⟨rfl, rfl⟩ hmisfit
          | _ => rfl
      | text value =>
          cases right with
          | text other => exact absurd ⟨rfl, rfl⟩ hmisfit
          | _ => rfl
      | _ => rfl
  | _ => cases hop

/-- On values that compare, each operator of order tells whether it admits the way they do. -/
theorem apply_of_order? {ordering : Ordering} (hop : op.isOrder = true)
    (h : left.order? right = some ordering) :
    apply store op left right line = .ok (.boolean (op.admits ordering)) := by
  obtain ⟨htype, hordered⟩ := Value.type_of_order? h
  rw [apply_order hop htype hordered, h, Option.any_some]

theorem apply_less_iff :
    apply store .less left right line = .ok (.boolean true) ↔ left.order? right = some .lt := by
  constructor
  · intro hless
    by_cases htypes : left.type = right.type ∧ left.type.isOrdered = true
    · rw [apply_order rfl htypes.1 htypes.2] at hless
      injection hless with hless
      injection hless with hless
      rw [Option.any_eq_true] at hless
      obtain ⟨ordering, horder, hadmits⟩ := hless
      rw [horder, eq_of_beq hadmits]
    · rw [apply_order_misfit rfl htypes] at hless
      cases hless
  · intro horder
    rw [apply_of_order? rfl horder]
    rfl

theorem apply_less_swap {result : Value} :
    apply store .less left right line = .ok result ↔
      apply store .greater right left line = .ok result := by
  by_cases htypes : left.type = right.type ∧ left.type.isOrdered = true
  · obtain ⟨hsame, hordered⟩ := htypes
    have hadmits : (right.order? left).any greater.admits =
        (left.order? right).any less.admits := by
      rw [Value.order?_swap left right]
      exact any_swap (by decide) (left.order? right)
    rw [apply_order rfl hsame hordered, apply_order rfl hsame.symm (hsame ▸ hordered), hadmits]
  · have hswapped : ¬(right.type = left.type ∧ right.type.isOrdered = true) := by
      intro ⟨hsame, hordered⟩
      exact htypes ⟨hsame.symm, hsame ▸ hordered⟩
    rw [apply_order_misfit rfl htypes, apply_order_misfit rfl hswapped]
    exact iff_of_false nofun nofun

theorem apply_less_texts (left right : String) :
    apply store .less (.text left) (.text right) line =
      .ok (.boolean (decide (Text.codePoints left < Text.codePoints right))) := by
  rw [decide_eq_decide.mpr Text.codePoints_lt_iff]
  rfl

theorem apply_nan {left right : Float} (hnan : left.isNaN = true ∨ right.isNaN = true)
    (hop : op.isOrder = true) :
    apply store op (.number left) (.number right) line = .ok (.boolean false) := by
  have horder : (Value.number left).order? (.number right) = none := by
    rcases hnan with hleft | hright
    · exact Number.order?_of_isNaN_left hleft right
    · exact Number.order?_of_isNaN_right left hright
  have hsame : (Value.number left).type = (Value.number right).type := rfl
  rw [apply_order hop hsame rfl, horder, Option.any_none]

/-- On texts, and on numbers that are numbers, the operators of comparison are those of one linear
order, and on texts that is the order of the code points and of the bytes.  What is not a number
stands in no order and is equal to nothing, all other operands have no order, and equality never
fails. -/
theorem comparison_consistent (store : Store) (line : Nat) :
    (∀ left right, Value.Comparable left right → ∃ ordering : Ordering,
      apply store .less left right line = .ok (.boolean (ordering == .lt)) ∧
      apply store .equal left right line = .ok (.boolean (ordering == .eq)) ∧
      apply store .greater left right line = .ok (.boolean (ordering == .gt)) ∧
      apply store .lessEqual left right line = .ok (.boolean !(ordering == .gt)) ∧
      apply store .greaterEqual left right line = .ok (.boolean !(ordering == .lt))) ∧
    (∀ left right result, apply store .less left right line = .ok result ↔
      apply store .greater right left line = .ok result) ∧
    (∀ left middle right, apply store .less left middle line = .ok (.boolean true) →
      apply store .less middle right line = .ok (.boolean true) →
      apply store .less left right line = .ok (.boolean true)) ∧
    (∀ left right : String,
      apply store .less (.text left) (.text right) line =
        .ok (.boolean (decide (Text.codePoints left < Text.codePoints right))) ∧
      (Text.codePoints left < Text.codePoints right ↔
        left.toUTF8.data.toList < right.toUTF8.data.toList)) ∧
    (∀ left right : Float, left.isNaN = true ∨ right.isNaN = true → ∀ op, op.isOrder = true →
      apply store op (.number left) (.number right) line = .ok (.boolean false)) ∧
    (∀ content : Float, content.isNaN = true → ∀ value,
      apply store .equal (.number content) value line = .ok (.boolean false) ∧
      apply store .equal value (.number content) line = .ok (.boolean false)) ∧
    (∀ left right, ∃ same, apply store .equal left right line = .ok (.boolean same) ∧
      apply store .notEqual left right line = .ok (.boolean !same)) ∧
    ∀ left right, ¬(left.type = right.type ∧ left.type.isOrdered = true) →
      ∀ op, op.isOrder = true → apply store op left right line =
        .error (.ofType (.incomparable op left.type right.type) line) := by
  have hequal : ∀ left right : Value,
      apply store .equal left right line = .ok (.boolean (left.looselyEquals right)) :=
    fun _ _ => rfl
  have hlinear : ∀ left right, Value.Comparable left right → ∃ ordering : Ordering,
      apply store .less left right line = .ok (.boolean (ordering == .lt)) ∧
      apply store .equal left right line = .ok (.boolean (ordering == .eq)) ∧
      apply store .greater left right line = .ok (.boolean (ordering == .gt)) ∧
      apply store .lessEqual left right line = .ok (.boolean !(ordering == .gt)) ∧
      apply store .greaterEqual left right line = .ok (.boolean !(ordering == .lt)) := by
    intro left right hcomparable
    obtain ⟨ordering, horder⟩ := hcomparable.exists_order?
    have hsame : left.looselyEquals right = (ordering == .eq) :=
      Value.looselyEquals_of_order? horder
    exact ⟨ordering, apply_of_order? rfl horder, hsame ▸ hequal left right,
      apply_of_order? rfl horder, apply_of_order? rfl horder, apply_of_order? rfl horder⟩
  have hbytes : ∀ left right : String, Text.codePoints left < Text.codePoints right ↔
      left.toUTF8.data.toList < right.toUTF8.data.toList := by
    intro left right
    rw [← Text.bytes_toList, ← Text.bytes_toList, Text.bytes_lt_iff, Text.codePoints_lt_iff]
    exact String.lt_iff_toList_lt
  have hnan : ∀ content : Float, content.isNaN = true → ∀ value,
      apply store .equal (.number content) value line = .ok (.boolean false) ∧
      apply store .equal value (.number content) line = .ok (.boolean false) := by
    intro content hcontent value
    rw [hequal, hequal, Value.looselyEquals_comm value, Value.looselyEquals_nan hcontent value]
    exact ⟨rfl, rfl⟩
  refine ⟨hlinear, fun _ _ _ => apply_less_swap, fun left middle right hfirst hsecond => ?_,
    fun left right => ⟨apply_less_texts left right, hbytes left right⟩,
    fun _ _ hleft _ hop => apply_nan hleft hop, hnan, fun left right => ⟨_, rfl, rfl⟩,
    fun _ _ hmisfit _ hop => apply_order_misfit hop hmisfit⟩
  rw [apply_less_iff] at hfirst hsecond ⊢
  exact Value.order?_trans hfirst hsecond

end BinaryOp

end Bhasha
