import Bhasha.Proofs.Builtin.Slice
import Bhasha.Proofs.Text.Bytes

/-!
# The search for a text

A search ends at the first place from which the characters of the other text follow each other.
It is the place of the first slice that is the other text, and the place at which the first
occurrence among the bytes begins.
-/

namespace Bhasha.Builtin

open Text (offset)

variable {needle text : List Char} {place : Nat}

theorem occurrence?_cons (needle : List Char) (c : Char) (rest : List Char) :
    occurrence? needle (c :: rest) =
      if needle.isPrefixOf (c :: rest) then some 0
      else (occurrence? needle rest).map (· + 1) :=
  rfl

theorem isLeast_of_occurrence? (h : occurrence? needle text = some place) :
    IsLeast {p | needle <+: text.drop p} place := by
  induction text generalizing place with
  | nil =>
      obtain ⟨hempty, hplace⟩ := Option.ite_none_right_eq_some.mp h
      cases hplace
      rw [List.isEmpty_iff.mp hempty]
      exact ⟨List.nil_prefix, fun _ _ => Nat.zero_le _⟩
  | cons c rest ih =>
      rw [occurrence?_cons] at h
      by_cases hfront : needle.isPrefixOf (c :: rest) = true
      · rw [if_pos hfront] at h
        cases h
        exact ⟨List.isPrefixOf_iff_prefix.mp hfront, fun _ _ => Nat.zero_le _⟩
      · rw [if_neg hfront] at h
        obtain ⟨later, hlater, rfl⟩ := Option.map_eq_some_iff.mp h
        obtain ⟨hstands, hleast⟩ := ih hlater
        refine ⟨hstands, fun other hother => ?_⟩
        cases other with
        | zero => exact absurd (List.isPrefixOf_iff_prefix.mpr hother) hfront
        | succ other => exact Nat.succ_le_succ (hleast hother)

theorem occurrence?_eq_none_iff : occurrence? needle text = none ↔ ¬needle <:+: text := by
  induction text with
  | nil => simp [occurrence?]
  | cons c rest ih =>
      rw [occurrence?_cons, List.infix_cons_iff, not_or, ← ih, ← List.isPrefixOf_iff_prefix]
      by_cases hfront : needle.isPrefixOf (c :: rest) = true
      · simp [hfront]
      · rw [if_neg hfront, Option.map_eq_none_iff]
        exact (and_iff_right hfront).symm

theorem exists_occurrence (h : needle <:+: text) : ∃ place, occurrence? needle text = some place :=
  Option.ne_none_iff_exists'.mp fun hnone => occurrence?_eq_none_iff.mp hnone h

theorem findIn_eq_neg_one_iff (text needle : String) :
    findIn text needle = -1 ↔ ¬needle.toList <:+: text.toList := by
  rw [← occurrence?_eq_none_iff]
  unfold findIn
  cases occurrence? needle.toList text.toList with
  | none => exact ⟨fun _ => rfl, fun _ => rfl⟩
  | some place => exact ⟨fun h => absurd h (Number.ofNat_ne_neg_one place), nofun⟩

theorem between_min (text : List Char) (start stop : Nat) :
    between text (min start text.length) (min stop text.length) = between text start stop := by
  unfold between
  rw [← List.take_eq_take_min]
  rcases Nat.le_total start text.length with hstart | hstart
  · rw [Nat.min_eq_left hstart]
  · have hlength : (text.take stop).length ≤ text.length := List.length_take_le' _ _
    rw [Nat.min_eq_right hstart, List.drop_eq_nil_of_le hlength,
      List.drop_eq_nil_of_le (Nat.le_trans hlength hstart)]

theorem between_add (text : List Char) (start length : Nat) :
    between text start (start + length) = (text.drop start).take length := by
  unfold between
  rw [List.drop_take, Nat.add_sub_cancel_left]

variable (store : Store) (line : Nat) (draw : Float)

/-- As long as numbers are exact, a slice of some length from a place on is what stands there. -/
theorem slice_at (text : Value) {place length : Nat} (hexact : place + length ≤ 2 ^ 53) :
    slice.apply [text, .number (Number.ofNat place), .number (Number.ofNat (place + length))]
        line draw store =
      .ok (.text (String.ofList (((text.display store).toList.drop place).take length)),
        .nothing) := by
  have hplace : place ≤ 2 ^ 53 := Nat.le_trans (Nat.le_add_right _ _) hexact
  rw [slice_of_bounds, boundOf_ofNat store _ hplace, boundOf_ofNat store _ hexact, between_min,
    between_add]

/-- The slice of a text from a place on that is as long as another text is this other text. -/
def IsSliceFrom (text needle : Value) (place : Nat) : Prop :=
  slice.apply [text, .number (Number.ofNat place),
      .number (Number.ofNat (place + (needle.display store).toList.length))] line draw store =
    .ok (.text (needle.display store), .nothing)

theorem isSliceFrom_iff (text needle : Value) {place : Nat}
    (hexact : place + (needle.display store).toList.length ≤ 2 ^ 53) :
    IsSliceFrom store line draw text needle place ↔
      (needle.display store).toList <+: (text.display store).toList.drop place := by
  unfold IsSliceFrom
  rw [slice_at store line draw text hexact, List.prefix_iff_eq_take]
  constructor
  · intro h
    simp only [Except.ok.injEq, Prod.mk.injEq, Value.text.injEq, and_true] at h
    have hcharacters := congrArg String.toList h
    rw [String.toList_ofList] at hcharacters
    exact hcharacters.symm
  · intro h
    rw [← h, String.ofList_toList]

/-- The first place at which a text stands is that of the first slice that is this text. -/
theorem isLeast_slice (text needle : Value) {place : Nat}
    (hleast : IsLeast
      {p | (needle.display store).toList <+: (text.display store).toList.drop p} place)
    (hexact : place + (needle.display store).toList.length ≤ 2 ^ 53) :
    IsLeast {p | IsSliceFrom store line draw text needle p} place := by
  refine ⟨(isSliceFrom_iff store line draw text needle hexact).mpr hleast.1, ?_⟩
  intro other hother
  by_contra hbefore
  -- A place before the first one would be a number too, and the slice from there be exact.
  have hwithin : other + (needle.display store).toList.length ≤ 2 ^ 53 := by omega
  exact hbefore (hleast.2 ((isSliceFrom_iff store line draw text needle hwithin).mp hother))

/-- A search finds the first place of a text among the characters of another, which is the place
of the first slice that is the text and the beginning of its first occurrence among the bytes.  It
gives minus one for a text that is nowhere. -/
theorem find_first_occurrence (text needle : Value) :
    let whole := (text.display store).toList
    let part := (needle.display store).toList
    ∃ found, find.apply [text, needle] line draw store = .ok (.number found, .nothing) ∧
      (found = -1 ↔ ¬part <:+: whole) ∧
      ((needle.display store).toUTF8.data.toList <:+: (text.display store).toUTF8.data.toList ↔
        part <:+: whole) ∧
      (part <:+: whole → ∃ place, found = Number.ofNat place ∧
        IsLeast {p | part <+: whole.drop p} place ∧
        IsLeast {position | (needle.display store).toUTF8.data.toList <+:
          (text.display store).toUTF8.data.toList.drop position} (offset whole place) ∧
        (place ≤ 2 ^ 53 → Number.truncate found = place) ∧
        (place + part.length ≤ 2 ^ 53 →
          IsLeast {p | IsSliceFrom store line draw text needle p} place)) ∧
      (part = [] → found = 0) := by
  intro whole part
  refine ⟨findIn (text.display store) (needle.display store), rfl,
    findIn_eq_neg_one_iff _ _, ?_, ?_, ?_⟩
  · rw [← Text.bytes_toList, ← Text.bytes_toList]
    exact Text.bytes_infix_iff
  · intro hinfix
    obtain ⟨place, hplace⟩ := exists_occurrence hinfix
    have hfound : findIn (text.display store) (needle.display store) = Number.ofNat place := by
      unfold findIn
      rw [hplace]
    have hleast := isLeast_of_occurrence? hplace
    refine ⟨place, hfound, hleast, ?_, ?_, isLeast_slice store line draw text needle hleast⟩
    · rw [← Text.bytes_toList, ← Text.bytes_toList]
      exact Text.isLeast_offset hleast
    · intro hexact
      rw [hfound]
      exact Number.truncate_ofNat hexact
  · intro hempty
    have hzero : occurrence? part whole = some 0 := by
      rw [hempty]
      cases whole <;> rfl
    unfold findIn
    rw [hzero]
    rfl

end Bhasha.Builtin
