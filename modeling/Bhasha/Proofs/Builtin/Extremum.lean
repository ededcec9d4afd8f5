import Bhasha.Builtin.Apply
import Bhasha.Proofs.Number.NotANumber
import Bhasha.Proofs.Number.Order

/-!
# The greatest and the least argument

The functions of extrema carry the best argument so far from one argument to the next.  It is the
extreme of all arguments behind it, and the extreme of some numbers is a matter of which numbers
there are and not of their order.  So the extreme of two extremes is that of all their numbers.
-/

namespace Bhasha

namespace Number

variable {x y z : Float}

/-- The same number, whatever the sign of a zero, or on both sides what is not a number. -/
def Same (left right : Float) : Prop :=
  (left == right) = true ∨ left.isNaN = true ∧ right.isNaN = true

theorem le_iff_place :
    x ≤ y ↔ x.isNaN = false ∧ y.isNaN = false ∧ place x ≤ place y := by
  rw [le_iff_order?, Option.any_eq_true]
  constructor
  · rintro ⟨ordering, horder, hle⟩
    obtain ⟨hx, hy, rfl⟩ := order?_eq_some_iff.mp horder
    exact ⟨hx, hy, compare_le_iff_le.mp (Ordering.isLE_iff_ne_gt.mp hle)⟩
  · rintro ⟨hx, hy, hle⟩
    have hplaces := Ordering.isLE_iff_ne_gt.mpr (compare_le_iff_le.mpr hle)
    exact ⟨_, order?_eq_place hx hy, hplaces⟩

protected theorem le_trans (hxy : x ≤ y) (hyz : y ≤ z) : x ≤ z := by
  rw [le_iff_place] at hxy hyz ⊢
  exact ⟨hxy.1, hyz.2.1, hxy.2.2.trans hyz.2.2⟩

theorem le_or_le (hx : x.isNaN = false) (hy : y.isNaN = false) : x ≤ y ∨ y ≤ x := by
  rw [le_iff_place, le_iff_place]
  rcases le_total (place x) (place y) with hle | hle
  · exact .inl ⟨hx, hy, hle⟩
  · exact .inr ⟨hy, hx, hle⟩

theorem beq_of_le_of_le (hxy : x ≤ y) (hyx : y ≤ x) : (x == y) = true := by
  rw [le_iff_place] at hxy hyx
  rw [beq_eq_order?, order?_eq_some_iff.mpr ⟨hxy.1, hxy.2.1, rfl⟩, beq_iff_eq,
    compare_eq_iff_eq.mpr (le_antisymm hxy.2.2 hyx.2.2)]

/-- The places of the infinities are the first and the last. -/
theorem placeOf_bounds {number : Float.Model.UnpackedFloat} (h : number.isNaN = false) :
    toLex (-2, toLex (0, 0)) ≤ placeOf number ∧ placeOf number ≤ toLex (2, toLex (0, 0)) := by
  cases number with
  | notANumber => cases h
  | infinity sign => cases sign <;> decide
  | zero sign => cases sign <;> decide
  | finite sign mantissa exponent hpos =>
      cases sign <;> simp [placeOf, Prod.Lex.toLex_le_toLex]

theorem neg_infinity_le (hx : x.isNaN = false) : -infinity ≤ x := by
  have hplace : place (-infinity) = toLex (-2, toLex (0, 0)) := by decide +kernel
  rw [le_iff_place, hplace]
  exact ⟨(isNaN_neg infinity).trans isNaN_infinity, hx, (placeOf_bounds hx).1⟩

theorem le_infinity (hx : x.isNaN = false) : x ≤ infinity := by
  have hplace : place infinity = toLex (2, toLex (0, 0)) := by decide +kernel
  rw [le_iff_place, hplace]
  exact ⟨hx, isNaN_infinity, (placeOf_bounds hx).2⟩

end Number

/-- A way to rank numbers that leaves no two of them apart, and ranks only equal ones alike. -/
structure Ranks (outranks : Float → Float → Prop) : Prop where
  total : ∀ {x y : Float}, x.isNaN = false → y.isNaN = false → outranks x y ∨ outranks y x
  trans : ∀ {x y z : Float}, outranks x y → outranks y z → outranks x z
  beq : ∀ {x y : Float}, outranks x y → outranks y x → (x == y) = true

theorem ranks_le : Ranks fun x y => x ≤ y where
  total := Number.le_or_le
  trans := Number.le_trans
  beq := Number.beq_of_le_of_le

theorem ranks_ge : Ranks fun x y => y ≤ x where
  total hx hy := (Number.le_or_le hx hy).symm
  trans hxy hyz := Number.le_trans hyz hxy
  beq hxy hyx := Number.beq_of_le_of_le hyx hxy

theorem Ranks.refl {outranks : Float → Float → Prop} (h : Ranks outranks) {x : Float}
    (hx : x.isNaN = false) : outranks x x :=
  (h.total hx hx).elim id id

/-- The extreme of some numbers is one of them that outranks them all, and no number if one of
them is none. -/
structure IsExtreme (outranks : Float → Float → Prop) (numbers : List Float) (best : Float) :
    Prop where
  isNaN_iff : best.isNaN = true ↔ ∃ x ∈ numbers, x.isNaN = true
  mem : best.isNaN = false → best ∈ numbers
  outranks : best.isNaN = false → ∀ x ∈ numbers, outranks best x

namespace IsExtreme

variable {outranks : Float → Float → Prop} {numbers others : List Float} {best other x : Float}

theorem isNaN_eq_false (h : IsExtreme outranks numbers best) (hbest : best.isNaN = false)
    (hx : x ∈ numbers) : x.isNaN = false := by
  by_contra hnan
  have hnone := h.isNaN_iff.mpr ⟨x, hx, Bool.not_eq_false _ ▸ hnan⟩
  rw [hbest] at hnone
  cases hnone

/-- Among numbers of which one is none, the extreme is none. -/
theorem of_isNaN (hbest : best.isNaN = true) (hmem : x ∈ numbers) (hx : x.isNaN = true) :
    IsExtreme outranks numbers best where
  isNaN_iff := iff_of_true hbest ⟨x, hmem, hx⟩
  mem hnumber := by rw [hbest] at hnumber; cases hnumber
  outranks hnumber := by rw [hbest] at hnumber; cases hnumber

/-- Among numbers that are numbers, the extreme is one that outranks all. -/
theorem of_outranks (hnumbers : ∀ x ∈ numbers, x.isNaN = false) (hmem : best ∈ numbers)
    (houtranks : ∀ x ∈ numbers, outranks best x) : IsExtreme outranks numbers best where
  isNaN_iff := by
    refine iff_of_false (Bool.not_eq_true _ ▸ hnumbers best hmem) ?_
    rintro ⟨x, hx, hnan⟩
    rw [hnumbers x hx] at hnan
    cases hnan
  mem _ := hmem
  outranks _ := houtranks

/-- Only which numbers there are counts. -/
theorem of_mem_iff (h : IsExtreme outranks numbers best)
    (hsame : ∀ x, x ∈ others ↔ x ∈ numbers) : IsExtreme outranks others best where
  isNaN_iff := by simpa only [hsame] using h.isNaN_iff
  mem hbest := (hsame best).mpr (h.mem hbest)
  outranks hbest x hx := h.outranks hbest x ((hsame x).mp hx)

/-- The extreme of some numbers stands for them among others. -/
theorem append (hranks : Ranks outranks) (h : IsExtreme outranks numbers best)
    (hother : IsExtreme outranks (best :: others) other) :
    IsExtreme outranks (numbers ++ others) other where
  isNaN_iff := by
    rw [hother.isNaN_iff, List.exists_mem_cons_iff, h.isNaN_iff]
    simp only [List.mem_append, or_and_right, exists_or]
  mem hnumber := by
    have hbest := hother.isNaN_eq_false hnumber List.mem_cons_self
    rw [List.mem_append]
    rcases List.mem_cons.mp (hother.mem hnumber) with rfl | hmem
    · exact .inl (h.mem hbest)
    · exact .inr hmem
  outranks hnumber x hx := by
    have hbest := hother.isNaN_eq_false hnumber List.mem_cons_self
    rcases List.mem_append.mp hx with hfirst | hsecond
    · have habove := hother.outranks hnumber best List.mem_cons_self
      exact hranks.trans habove (h.outranks hbest x hfirst)
    · exact hother.outranks hnumber x (List.mem_cons_of_mem best hsecond)

theorem same (hranks : Ranks outranks) (h : IsExtreme outranks numbers best)
    (hother : IsExtreme outranks numbers other) : Number.Same best other := by
  by_cases hbest : best.isNaN = true
  · exact .inr ⟨hbest, hother.isNaN_iff.mpr (h.isNaN_iff.mp hbest)⟩
  · have hnumber : best.isNaN = false := Bool.not_eq_true _ ▸ hbest
    have hotherNumber : other.isNaN = false := by
      by_contra hnan
      exact hbest (h.isNaN_iff.mpr (hother.isNaN_iff.mp (Bool.not_eq_false _ ▸ hnan)))
    have habove := h.outranks hnumber other (hother.mem hotherNumber)
    have hbelow := hother.outranks hotherNumber best (h.mem hnumber)
    exact .inl (hranks.beq habove hbelow)

section

variable {identity : Float}

theorem isNaN_iff_of_identity (hidentity : identity.isNaN = false)
    (h : IsExtreme outranks (identity :: numbers) best) :
    best.isNaN = true ↔ ∃ x ∈ numbers, x.isNaN = true := by
  rw [h.isNaN_iff, List.exists_mem_cons_iff]
  exact or_iff_right (Bool.not_eq_true _ ▸ hidentity)

/-- A number that all others outrank is the extreme only if it equals one of them. -/
theorem exists_beq_of_identity (hranks : Ranks outranks)
    (hidentity : ∀ {x : Float}, x.isNaN = false → outranks x identity)
    (h : IsExtreme outranks (identity :: numbers) best) (hbest : best.isNaN = false)
    (hsome : numbers ≠ []) : ∃ x ∈ numbers, (best == x) = true := by
  rcases List.mem_cons.mp (h.mem hbest) with rfl | hmem
  · obtain ⟨x, hx⟩ := List.exists_mem_of_ne_nil numbers hsome
    have hmem := List.mem_cons_of_mem best hx
    have hnumber := h.isNaN_eq_false hbest hmem
    exact ⟨x, hx, hranks.beq (h.outranks hbest x hmem) (hidentity hnumber)⟩
  · exact ⟨best, hmem, by rw [Number.beq_self, hbest, Bool.not_false]⟩

/-- The extreme of two extremes is that of all their numbers. -/
theorem joined {first second : Float} (hranks : Ranks outranks)
    (hfirst : IsExtreme outranks (identity :: numbers) first)
    (hsecond : IsExtreme outranks (identity :: others) second)
    (h : IsExtreme outranks [identity, first, second] best) :
    IsExtreme outranks (identity :: (numbers ++ others)) best := by
  have hfront : IsExtreme outranks [first, second, identity] best :=
    h.of_mem_iff fun x => by simp only [List.mem_cons]; tauto
  have hmiddle : IsExtreme outranks (second :: identity :: numbers) best :=
    (hfirst.append hranks hfront).of_mem_iff fun x => by
      simp only [List.mem_cons, List.mem_append]; tauto
  refine (hsecond.append hranks hmiddle).of_mem_iff fun x => ?_
  simp only [List.mem_cons, List.mem_append]
  tauto

end

end IsExtreme

namespace Builtin

variable {outranks : Float → Float → Prop} {replaces : Float → Float → Bool}

/-- One step of the search leaves the better of two numbers. -/
theorem isExtreme_improve (hranks : Ranks outranks)
    (hreplaces : ∀ next best, replaces next best = true ↔ outranks next best) (best next : Float) :
    IsExtreme outranks [best, next] (improve replaces best next) := by
  unfold improve
  by_cases hnext : next.isNaN = true
  · rw [if_pos hnext]
    exact .of_isNaN Number.isNaN_nan (x := next) (by simp) hnext
  rw [if_neg hnext]
  by_cases hbest : best.isNaN = true
  · rw [if_pos hbest]
    exact .of_isNaN hbest (x := best) (by simp) hbest
  rw [if_neg hbest]
  rw [Bool.not_eq_true] at hnext hbest
  have hnumbers : ∀ x ∈ [best, next], x.isNaN = false :=
    List.forall_mem_cons.mpr ⟨hbest, List.forall_mem_singleton.mpr hnext⟩
  by_cases hreplaced : replaces next best = true
  · rw [if_pos hreplaced]
    have hbetter := (hreplaces next best).mp hreplaced
    exact .of_outranks hnumbers (by simp) (by simp [hbetter, hranks.refl hnext])
  · rw [if_neg hreplaced]
    have hbetter : outranks best next :=
      (hranks.total hbest hnext).resolve_right fun h => hreplaced ((hreplaces next best).mpr h)
    exact .of_outranks hnumbers (by simp) (by simp [hbetter, hranks.refl hbest])

/-- The search leaves the extreme of all numbers that it has met. -/
theorem isExtreme_foldl (hranks : Ranks outranks)
    (hreplaces : ∀ next best, replaces next best = true ↔ outranks next best)
    (best : Float) (numbers : List Float) :
    IsExtreme outranks (best :: numbers) (numbers.foldl (improve replaces) best) := by
  induction numbers generalizing best with
  | nil =>
      by_cases hbest : best.isNaN = true
      · exact .of_isNaN hbest List.mem_cons_self hbest
      · rw [Bool.not_eq_true] at hbest
        exact .of_outranks (List.forall_mem_singleton.mpr hbest) List.mem_cons_self
          (List.forall_mem_singleton.mpr (hranks.refl hbest))
  | cons next rest ih =>
      exact (isExtreme_improve hranks hreplaces best next).append hranks (ih _)

theorem bestOf_numbers (replaces : Float → Float → Bool) (worst : Float) (numbers : List Float)
    (line : Nat) :
    bestOf replaces worst (numbers.map .number) line =
      .ok (numbers.foldl (improve replaces) worst) := by
  unfold bestOf
  induction numbers generalizing worst with
  | nil => rfl
  | cons next rest ih => exact ih (improve replaces worst next)

/-- Arguments are all numbers, or one of them is the first that is not. -/
theorem numbers_or_misfit (arguments : List Value) :
    (∃ numbers : List Float, arguments = numbers.map .number) ∨
      ∃ (numbers : List Float) (value : Value) (back : List Value),
        value.type ≠ .number ∧ arguments = numbers.map .number ++ value :: back := by
  induction arguments with
  | nil => exact .inl ⟨[], rfl⟩
  | cons value rest ih =>
      by_cases hvalue : value.type = .number
      · obtain ⟨x, rfl⟩ : ∃ x, value = .number x := by
          cases value with
          | number x => exact ⟨x, rfl⟩
          | _ => cases hvalue
        rcases ih with ⟨numbers, rfl⟩ | ⟨numbers, other, back, hother, rfl⟩
        · exact .inl ⟨x :: numbers, rfl⟩
        · exact .inr ⟨x :: numbers, other, back, hother, rfl⟩
      · exact .inr ⟨[], value, rest, hvalue, rfl⟩

theorem asNumber_misfit {value : Value} (h : value.type ≠ .number) (line : Nat) :
    value.asNumber line = .error (.ofType (.notANumber value.type) line) := by
  cases value with
  | number x => exact absurd rfl h
  | _ => rfl

/-- The search goes on behind what is not a number, and fails at what is of another type. -/
theorem bestOf_misfit (replaces : Float → Float → Bool) (worst : Float) (numbers : List Float)
    {value : Value} (hvalue : value.type ≠ .number) (rest : List Value) (line : Nat) :
    bestOf replaces worst (numbers.map .number ++ value :: rest) line =
      .error (.ofType (.notANumber value.type) line) := by
  unfold bestOf
  induction numbers generalizing worst with
  | nil =>
      rw [List.map_nil, List.nil_append, List.foldlM_cons, asNumber_misfit hvalue]
      rfl
  | cons next others ih => exact ih (improve replaces worst next)

/-- A built-in function gives the extreme of its arguments, and a number that all others outrank if
there are none. -/
structure TakesExtreme (builtin : Builtin) (outranks : Float → Float → Prop) (identity : Float) :
    Prop where
  fails_iff : ∀ arguments line draw store,
    (∃ halt, builtin.apply arguments line draw store = .error halt) ↔
      ∃ value ∈ arguments, value.type ≠ .number
  names_first : ∀ front value back line draw store,
    (∀ other ∈ front, other.type = .number) → value.type ≠ .number →
      ∃ fault, builtin.apply (front ++ value :: back) line draw store = .error (.fault fault) ∧
        fault.cause = .type (.notANumber value.type) ∧ fault.line = line ∧
        fault.message = "Type error: expected a number, found " ++ value.type.name
  of_numbers : ∀ (numbers : List Float) line draw store, ∃ best,
    builtin.apply (numbers.map .number) line draw store = .ok (.number best, .nothing) ∧
      (best.isNaN = true ↔ ∃ x ∈ numbers, x.isNaN = true) ∧
      (best.isNaN = false → ∀ x ∈ numbers, outranks best x) ∧
      (best.isNaN = false → numbers ≠ [] → ∃ x ∈ numbers, (best == x) = true) ∧
      (numbers = [] → best = identity)
  of_perm : ∀ numbers others : List Float, numbers.Perm others → ∀ line draw store,
    ∃ best other,
      builtin.apply (numbers.map .number) line draw store = .ok (.number best, .nothing) ∧
      builtin.apply (others.map .number) line draw store = .ok (.number other, .nothing) ∧
      Number.Same best other
  of_append : ∀ (numbers others : List Float) line draw store, ∃ first second whole joined,
    builtin.apply (numbers.map .number) line draw store = .ok (.number first, .nothing) ∧
    builtin.apply (others.map .number) line draw store = .ok (.number second, .nothing) ∧
    builtin.apply ((numbers ++ others).map .number) line draw store =
      .ok (.number whole, .nothing) ∧
    builtin.apply [.number first, .number second] line draw store =
      .ok (.number joined, .nothing) ∧
    Number.Same whole joined

theorem takesExtreme_of_ranks {builtin : Builtin} {identity : Float} (hranks : Ranks outranks)
    (hreplaces : ∀ next best, replaces next best = true ↔ outranks next best)
    (hidentity : ∀ {x : Float}, x.isNaN = false → outranks x identity)
    (hnumber : identity.isNaN = false)
    (happly : ∀ arguments line draw store, builtin.apply arguments line draw store =
      reads ((bestOf replaces identity arguments line).map .number)) :
    builtin.TakesExtreme outranks identity := by
  have hnumbers (numbers : List Float) (line : Nat) (draw : Float) (store : Store) :
      builtin.apply (numbers.map .number) line draw store =
        .ok (.number (numbers.foldl (improve replaces) identity), .nothing) := by
    rw [happly, bestOf_numbers]
    rfl
  have hmisfit (numbers : List Float) {value : Value} (hvalue : value.type ≠ .number)
      (back : List Value) (line : Nat) (draw : Float) (store : Store) :
      builtin.apply (numbers.map .number ++ value :: back) line draw store =
        .error (.fault (.ofType (.notANumber value.type) line)) := by
    rw [happly, bestOf_misfit replaces identity numbers hvalue]
    rfl
  have hextreme (numbers : List Float) :
      IsExtreme outranks (identity :: numbers) (numbers.foldl (improve replaces) identity) :=
    isExtreme_foldl hranks hreplaces identity numbers
  refine ⟨?_, ?_, ?_, ?_, ?_⟩
  · intro arguments line draw store
    rcases numbers_or_misfit arguments with ⟨numbers, rfl⟩ | ⟨numbers, value, back, hvalue, rfl⟩
    · rw [hnumbers]
      refine iff_of_false nofun ?_
      simp [Value.type]
    · rw [hmisfit numbers hvalue]
      exact iff_of_true ⟨_, rfl⟩ ⟨value, by simp, hvalue⟩
  · intro front value back line draw store hfront hvalue
    rcases numbers_or_misfit front with ⟨numbers, rfl⟩ | ⟨numbers, other, rest, hother, rfl⟩
    · exact ⟨_, hmisfit numbers hvalue back line draw store, rfl, rfl, rfl⟩
    · exact absurd (hfront other (by simp)) hother
  · intro numbers line draw store
    refine ⟨_, hnumbers numbers line draw store, (hextreme numbers).isNaN_iff_of_identity hnumber,
      ?_, (hextreme numbers).exists_beq_of_identity hranks hidentity, ?_⟩
    · intro hbest x hx
      exact (hextreme numbers).outranks hbest x (List.mem_cons_of_mem identity hx)
    · rintro rfl
      rfl
  · intro numbers others hperm line draw store
    refine ⟨_, _, hnumbers numbers line draw store, hnumbers others line draw store, ?_⟩
    refine (hextreme numbers).same hranks ((hextreme others).of_mem_iff ?_)
    intro x
    rw [List.mem_cons, List.mem_cons, hperm.mem_iff]
  · intro numbers others line draw store
    refine ⟨_, _, _, _, hnumbers numbers line draw store, hnumbers others line draw store,
      hnumbers (numbers ++ others) line draw store, hnumbers [_, _] line draw store, ?_⟩
    have hjoined := (hextreme numbers).joined hranks (hextreme others) (hextreme [_, _])
    exact (hextreme (numbers ++ others)).same hranks hjoined

/-- The greatest and the least of the arguments do not depend on their order.  An argument that is
not of the type of numbers makes the call fail, and the first one is named, even behind what is not
a number; else what is not a number makes the result none.  Else the result equals an argument and
is on no worse side of any, or is an infinity if there are none. -/
theorem extrema_of_any_order :
    greatest.TakesExtreme (fun x y => y ≤ x) (-Number.infinity) ∧
      least.TakesExtreme (fun x y => x ≤ y) Number.infinity := by
  constructor
  · exact takesExtreme_of_ranks ranks_ge (fun _ _ => decide_eq_true_iff) Number.neg_infinity_le
      ((Number.isNaN_neg _).trans Number.isNaN_infinity) fun _ _ _ _ => rfl
  · exact takesExtreme_of_ranks ranks_le (fun _ _ => decide_eq_true_iff) Number.le_infinity
      Number.isNaN_infinity fun _ _ _ _ => rfl

end Builtin

end Bhasha
