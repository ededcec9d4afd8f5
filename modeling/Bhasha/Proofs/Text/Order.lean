import Bhasha.Proofs.Text.Bytes

/-!
# The order of texts

Texts are ordered by the code points of their characters, at the first place where these differ.
The bytes of a character with a greater code point are greater, and they differ at a byte of both.
So the bytes of texts are ordered as the texts are.
-/

namespace Bhasha.Text

/-- The code points of a text. -/
def codePoints (text : String) : List Nat :=
  text.toList.map Char.toNat

/-- The last digits of a code point in base sixty-four, each in a byte of its own. -/
def continuation (codePoint : Nat) : Nat → List UInt8
  | 0 => []
  | count + 1 => UInt8.ofNat (codePoint / 64 ^ count % 64 + 0x80) :: continuation codePoint count

variable {low high : Nat}

theorem ofNat_cons_lt (hlt : low < high) (hhigh : high < 256) (rest other : List UInt8) :
    UInt8.ofNat low :: rest < UInt8.ofNat high :: other :=
  List.cons_lt_cons_iff.mpr (.inl ((UInt8.ofNat_lt_iff_lt (hlt.trans hhigh) hhigh).mpr hlt))

theorem continuation_append_lt (hlt : low < high) {count : Nat}
    (hsame : low / 64 ^ count = high / 64 ^ count) (rest other : List UInt8) :
    continuation low count ++ rest < continuation high count ++ other := by
  induction count with
  | zero =>
      rw [Nat.pow_zero, Nat.div_one, Nat.div_one] at hsame
      omega
  | succ count ih =>
      have hle : low / 64 ^ count ≤ high / 64 ^ count := Nat.div_le_div_right (Nat.le_of_lt hlt)
      rw [Nat.pow_succ, ← Nat.div_div_eq_div_mul, ← Nat.div_div_eq_div_mul] at hsame
      rw [continuation, continuation]
      by_cases hdigit : low / 64 ^ count = high / 64 ^ count
      · rw [hdigit]
        exact List.cons_lt_cons_iff.mpr (.inr ⟨rfl, ih hdigit⟩)
      · apply ofNat_cons_lt <;> omega

/-- The first byte marks how many bytes follow, and it has room for the first digits. -/
theorem marked_append_lt (hlt : low < high) {count room mark : Nat}
    (hroom : high / 64 ^ count < room) (hmark : room + mark ≤ 256) (rest other : List UInt8) :
    UInt8.ofNat (low / 64 ^ count % room + mark) :: continuation low count ++ rest <
      UInt8.ofNat (high / 64 ^ count % room + mark) :: continuation high count ++ other := by
  have hle : low / 64 ^ count ≤ high / 64 ^ count := Nat.div_le_div_right (Nat.le_of_lt hlt)
  rw [Nat.mod_eq_of_lt hroom, Nat.mod_eq_of_lt (Nat.lt_of_le_of_lt hle hroom)]
  by_cases hdigit : low / 64 ^ count = high / 64 ^ count
  · rw [hdigit]
    exact List.cons_lt_cons_iff.mpr (.inr ⟨rfl, continuation_append_lt hlt hdigit rest other⟩)
  · apply ofNat_cons_lt <;> omega

theorem toNat_lt_limit (c : Char) : c.val.toNat < 0x110000 := by
  rcases c.valid with h | h
  · exact Nat.lt_trans h (by decide)
  · exact h.2

theorem utf8EncodeChar_append_lt {first second : Char} (h : first < second)
    (rest other : List UInt8) :
    String.utf8EncodeChar first ++ rest < String.utf8EncodeChar second ++ other := by
  have hlt : first.val.toNat < second.val.toNat := h
  have hlast : second.val.toNat < 0x110000 := toNat_lt_limit second
  unfold String.utf8EncodeChar
  generalize first.val.toNat = low at hlt
  generalize second.val.toNat = high at hlt hlast
  simp only
  split_ifs <;> try omega
  -- Of encodings with different numbers of bytes, and of single bytes, the first byte decides.
  any_goals (apply ofNat_cons_lt <;> omega)
  · simpa [continuation] using
      @marked_append_lt low high hlt 1 0x20 0xc0 (by omega) (by omega) rest other
  · simpa [continuation] using
      @marked_append_lt low high hlt 2 0x10 0xe0 (by omega) (by omega) rest other
  · simpa [continuation] using
      @marked_append_lt low high hlt 3 0x08 0xf0 (by omega) (by omega) rest other

theorem bytes_lt_of_lt {text other : List Char} (h : text < other) : bytes text < bytes other := by
  induction h with
  | @nil c rest =>
      obtain ⟨byte, others, hbytes⟩ :=
        List.exists_cons_of_ne_nil (@String.utf8EncodeChar_ne_nil c)
      rw [bytes_cons, hbytes]
      exact List.nil_lt_cons _ _
  | @rel c rest d others hlt =>
      rw [bytes_cons, bytes_cons]
      exact utf8EncodeChar_append_lt hlt _ _
  | @cons c rest others _ ih =>
      rw [bytes_cons, bytes_cons]
      exact List.append_left_lt ih

theorem bytes_lt_iff {text other : List Char} : bytes text < bytes other ↔ text < other := by
  refine ⟨fun h => ?_, bytes_lt_of_lt⟩
  rcases lt_trichotomy text other with hlt | rfl | hgt
  · exact hlt
  · exact absurd h (List.lt_irrefl _)
  · exact absurd h (List.lt_asymm (bytes_lt_of_lt hgt))

theorem codePoints_lt_iff {text other : String} :
    codePoints text < codePoints other ↔ text < other := by
  have hmono : StrictMono (List.map Char.toNat) := fun _ _ h =>
    List.map_lt (fun _ _ hlt => hlt) h
  exact hmono.lt_iff_lt

end Bhasha.Text
