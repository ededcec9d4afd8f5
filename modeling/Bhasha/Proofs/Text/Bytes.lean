import Mathlib

/-!
# Texts as bytes

Every character of a text is written as one to four bytes, of which the first cannot be mistaken
for a later one.  So a text stands in the bytes of another only where a character begins, and the
places of characters and of bytes have the same order.
-/

namespace Bhasha.Text

variable {text part : List Char} {place : Nat}

/-- The bytes that a list of characters is written as. -/
def bytes (text : List Char) : List UInt8 :=
  text.flatMap String.utf8EncodeChar

theorem infix_iff_exists_prefix_drop {α : Type} {part whole : List α} :
    part <:+: whole ↔ ∃ place, part <+: whole.drop place := by
  constructor
  · intro h
    obtain ⟨rest, hfront, hsuffix⟩ := List.infix_iff_prefix_suffix.mp h
    rw [List.suffix_iff_eq_drop.mp hsuffix] at hfront
    exact ⟨_, hfront⟩
  · rintro ⟨place, hfront⟩
    exact hfront.isInfix.trans (List.drop_suffix place whole).isInfix

theorem bytes_cons (c : Char) (text : List Char) :
    bytes (c :: text) = String.utf8EncodeChar c ++ bytes text :=
  List.flatMap_cons

theorem bytes_append (text other : List Char) : bytes (text ++ other) = bytes text ++ bytes other :=
  List.flatMap_append

theorem bytes_toList (text : String) : bytes text.toList = text.toUTF8.data.toList := by
  have hencode : (bytes text.toList).toByteArray = text.toByteArray := String.utf8Encode_toList
  rw [String.toUTF8_eq_toByteArray, ← hencode, List.toList_data_toByteArray]

theorem bytes_prefix_iff : bytes part <+: bytes text ↔ part <+: text := by
  constructor
  · rintro ⟨rest, hrest⟩
    have hencode : part.utf8Encode ++ rest.toByteArray = text.utf8Encode := by
      unfold List.utf8Encode
      rw [← List.toByteArray_append]
      exact congrArg List.toByteArray hrest
    exact List.isPrefix_of_utf8Encode_append_eq_utf8Encode _ hencode
  · rintro ⟨rest, rfl⟩
    rw [bytes_append]
    exact List.prefix_append _ _

/-- The byte at which the character at a place begins. -/
def offset (text : List Char) (place : Nat) : Nat :=
  (bytes (text.take place)).length

theorem offset_le_offset {first second : Nat} (h : first ≤ second) :
    offset text first ≤ offset text second :=
  (bytes_prefix_iff.mpr (List.take_prefix_take_left h)).length_le

theorem drop_offset (text : List Char) (place : Nat) :
    (bytes text).drop (offset text place) = bytes (text.drop place) := by
  have hsplit : bytes text = bytes (text.take place) ++ bytes (text.drop place) := by
    rw [← bytes_append, List.take_append_drop]
  rw [hsplit]
  exact List.drop_left

/-- A byte that is the first one of some character stands where a character begins. -/
theorem exists_offset {position : Nat} {byte : UInt8} (h : (bytes text)[position]? = some byte)
    (hfirst : byte.IsUTF8FirstByte) : ∃ place, offset text place = position := by
  induction text generalizing position with
  | nil => cases h
  | cons c rest ih =>
      rw [bytes_cons] at h
      by_cases hinside : position < (String.utf8EncodeChar c).length
      · rw [List.getElem?_append_left hinside, List.getElem?_eq_getElem hinside] at h
        cases h
        have hzero := UInt8.isUTF8FirstByte_getElem_utf8EncodeChar.mp hfirst
        exact ⟨0, hzero.symm⟩
      · have hpast := Nat.le_of_not_lt hinside
        rw [List.getElem?_append_right hpast] at h
        obtain ⟨place, hplace⟩ := ih h
        refine ⟨place + 1, ?_⟩
        unfold offset at hplace ⊢
        rw [List.take_succ_cons, bytes_cons, List.length_append, hplace]
        exact Nat.add_sub_cancel' hpast

theorem exists_first_byte (h : part ≠ []) :
    ∃ byte, (bytes part)[0]? = some byte ∧ byte.IsUTF8FirstByte := by
  obtain ⟨c, rest, rfl⟩ := List.exists_cons_of_ne_nil h
  have hpos : 0 < (String.utf8EncodeChar c).length :=
    List.length_pos_iff.mpr String.utf8EncodeChar_ne_nil
  refine ⟨(String.utf8EncodeChar c)[0], ?_, UInt8.isUTF8FirstByte_getElem_utf8EncodeChar.mpr rfl⟩
  rw [bytes_cons, List.getElem?_append_left hpos, List.getElem?_eq_getElem hpos]

/-- A text that is not empty stands in the bytes of another only where a character begins. -/
theorem exists_place_of_bytes_prefix {position : Nat} (hpart : part ≠ [])
    (h : bytes part <+: (bytes text).drop position) :
    ∃ place, offset text place = position ∧ part <+: text.drop place := by
  obtain ⟨byte, hbyte, hfirst⟩ := exists_first_byte hpart
  have hinside : (bytes text)[position]? = some byte := by
    obtain ⟨rest, hrest⟩ := h
    have hzero : (bytes part ++ rest)[0]? = some byte := by
      rw [List.getElem?_append_left (List.getElem?_eq_some_iff.mp hbyte).1]
      exact hbyte
    rwa [hrest, List.getElem?_drop, Nat.add_zero] at hzero
  obtain ⟨place, rfl⟩ := exists_offset hinside hfirst
  rw [drop_offset, bytes_prefix_iff] at h
  exact ⟨place, rfl, h⟩

/-- The first place at which a text stands among characters begins at the first byte from which it
stands among bytes. -/
theorem isLeast_offset (h : IsLeast {p | part <+: text.drop p} place) :
    IsLeast {position | bytes part <+: (bytes text).drop position} (offset text place) := by
  obtain ⟨hstands, hleast⟩ := h
  constructor
  · change bytes part <+: (bytes text).drop (offset text place)
    rw [drop_offset, bytes_prefix_iff]
    exact hstands
  · intro position hposition
    rcases eq_or_ne part [] with rfl | hpart
    · have hzero : place = 0 := Nat.le_zero.mp (hleast (List.nil_prefix))
      rw [hzero]
      exact Nat.zero_le position
    · obtain ⟨other, rfl, hother⟩ := exists_place_of_bytes_prefix hpart hposition
      exact offset_le_offset (hleast hother)

/-- A text stands among the bytes of another only if it stands among its characters. -/
theorem bytes_infix_iff : bytes part <:+: bytes text ↔ part <:+: text := by
  constructor
  · intro h
    rcases eq_or_ne part [] with rfl | hpart
    · exact List.nil_infix
    · obtain ⟨position, hposition⟩ := infix_iff_exists_prefix_drop.mp h
      obtain ⟨place, -, hplace⟩ := exists_place_of_bytes_prefix hpart hposition
      exact infix_iff_exists_prefix_drop.mpr ⟨place, hplace⟩
  · rintro ⟨front, back, rfl⟩
    rw [bytes_append, bytes_append]
    exact List.infix_append _ _ _

end Bhasha.Text
