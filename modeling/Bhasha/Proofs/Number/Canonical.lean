import Bhasha.Number.Format
import Mathlib

/-!
# Canonical numbers

A finite number is a mantissa times a power of two.  Of all the ways to write it so, the packed
format has room for one: the mantissa has all of its bits, unless the exponent is the least one.
Such a mantissa and exponent are packed and unpacked without loss.
-/

namespace Bhasha.Number

open Float.Model Float.Model.UnpackedFloat

/-- The mantissa and exponent for which the packed format has room. -/
structure Canonical (mantissa : Nat) (exponent : Int) : Prop where
  pos : 0 < mantissa
  lt : mantissa < 2 ^ 53
  least : -1074 ≤ exponent
  greatest : exponent ≤ 971
  full : 2 ^ 52 ≤ mantissa ∨ exponent = -1074

theorem targetExponent_eq (total : Int) :
    Format.binary64.targetExponent total = max (total - 53) (-1074) :=
  rfl

theorem exponentBias_eq : Format.binary64.exponentBias = 1023 :=
  rfl

theorem log2_of_full {mantissa : Nat} (hfull : 2 ^ 52 ≤ mantissa) (hlt : mantissa < 2 ^ 53) :
    mantissa.log2 = 52 := by
  have hne : mantissa ≠ 0 := by omega
  have hle : 52 ≤ mantissa.log2 := (Nat.le_log2 hne).mpr hfull
  have hlog : mantissa.log2 < 53 := (Nat.log2_lt hne).mpr hlt
  omega

theorem Canonical.targetExponent {mantissa : Nat} {exponent : Int}
    (h : Canonical mantissa exponent) :
    Format.binary64.targetExponent (totalExponent mantissa exponent) = exponent := by
  have hne : mantissa ≠ 0 := Nat.ne_of_gt h.pos
  have hlog : mantissa.log2 < 53 := (Nat.log2_lt hne).mpr h.lt
  have hleast := h.least
  rw [targetExponent_eq, totalExponent]
  rcases h.full with hfull | hexponent
  · have hfullLog := log2_of_full hfull h.lt
    omega
  · omega

theorem toNat_implicit (mantissa : BitVec 52) :
    (1#1 ++ mantissa).toNat = 2 ^ 52 + mantissa.toNat := by
  rw [BitVec.toNat_append, ← Nat.shiftLeft_add_eq_or_of_lt mantissa.isLt]
  rfl

/-- A finite number is unpacked into a canonical mantissa and exponent. -/
theorem canonical_of_unpack {bits : BitVec 64} {sign : Sign} {mantissa : Nat} {exponent : Int}
    {hpos : 0 < mantissa}
    (h : UnpackedFloat.unpack Format.binary64 bits = .finite sign mantissa exponent hpos) :
    Canonical mantissa exponent := by
  have hmantissa : (@unpackMantissa Format.binary64 bits).toNat < 2 ^ 52 := BitVec.isLt _
  have hexponent : (@unpackExponent Format.binary64 bits).toNat < 2 ^ 11 := BitVec.isLt _
  unfold UnpackedFloat.unpack at h
  simp only [exponentBias_eq] at h
  split at h
  · split at h <;> cases h
  · next hspecial =>
      have hlast : (@unpackExponent Format.binary64 bits).toNat ≠ 2047 := by
        intro hsame
        exact hspecial (BitVec.eq_of_toNat_eq hsame)
      split at h
      · next hzero =>
          split at h
          · cases h
          · injection h with _ hfound hat
            rw [hzero] at hat
            subst hfound hat
            exact ⟨hpos, by omega, by decide, by decide, .inr rfl⟩
      · next hnonzero =>
          have hfirst : (@unpackExponent Format.binary64 bits).toNat ≠ 0 := by
            intro hsame
            exact hnonzero (BitVec.eq_of_toNat_eq hsame)
          injection h with _ hfound hat
          rw [toNat_implicit] at hfound
          exact ⟨hpos, by omega, by omega, by omega, .inl (by omega)⟩

theorem unpack_packComponents (sign : Sign) (exponent : BitVec 11) (mantissa : BitVec 52)
    (hspecial : exponent ≠ -1#11) :
    UnpackedFloat.unpack Format.binary64
        (packComponents Format.binary64 sign exponent mantissa) =
      if exponent = 0#11 then
        if h : mantissa = 0#52 then .zero sign
        else .finite sign mantissa.toNat (-1074) (by simpa [BitVec.toNat_pos, BitVec.pos_iff_ne_zero])
      else .finite sign (1#1 ++ mantissa).toNat (exponent.toNat - 1075)
        (by rw [toNat_implicit]; omega) := by
  unfold UnpackedFloat.unpack
  simp only [unpackMantissa_packComponents, unpackExponent_packComponents,
    unpackSign_packComponents, Sign.ofBitVec_toBitVec, exponentBias_eq, hspecial]
  by_cases hzero : exponent = 0#11
  · subst hzero
    rfl
  · simp [hzero]

theorem pack_finite {mantissa : Nat} {exponent : Int} (hpos : 0 < mantissa) (sign : Sign)
    (hgreatest : exponent ≤ 971) :
    UnpackedFloat.pack Format.binary64 (.finite sign mantissa exponent hpos) =
      if mantissa.log2 + 1 = 53 then
        packComponents Format.binary64 sign (BitVec.ofNat 11 (exponent + 1023 + 52).toNat)
          (BitVec.ofNat 52 mantissa)
      else packComponents Format.binary64 sign 0#11 (BitVec.ofNat 52 mantissa) := by
  have hroom : ¬2 ^ 11 ≤ (exponent + 1023 + 52).toNat + 1 := by omega
  exact if_neg hroom

/-- A canonical mantissa and exponent come back unchanged. -/
theorem Canonical.unpack_pack {mantissa : Nat} {exponent : Int}
    (h : Canonical mantissa exponent) (sign : Sign) :
    UnpackedFloat.unpack Format.binary64
        (UnpackedFloat.pack Format.binary64 (.finite sign mantissa exponent h.pos)) =
      .finite sign mantissa exponent h.pos := by
  obtain ⟨hpos, hlt, hleast, hgreatest, hfull⟩ := h
  by_cases hshort : mantissa < 2 ^ 52
  · obtain rfl : exponent = -1074 := hfull.resolve_left (Nat.not_le.mpr hshort)
    have hbits : (BitVec.ofNat 52 mantissa).toNat = mantissa := by
      rw [BitVec.toNat_ofNat, Nat.mod_eq_of_lt hshort]
    have hnonzero : BitVec.ofNat 52 mantissa ≠ 0#52 := by
      intro hzero
      rw [hzero] at hbits
      exact Nat.ne_of_lt hpos hbits
    have hlog : mantissa.log2 < 52 := (Nat.log2_lt (Nat.ne_of_gt hpos)).mpr hshort
    rw [pack_finite hpos sign hgreatest, if_neg (by omega),
      unpack_packComponents _ _ _ (by decide)]
    simp only [if_true, hnonzero, dif_neg, not_false_eq_true, hbits]
  · have hlow : 2 ^ 52 ≤ mantissa := Nat.not_lt.mp hshort
    have hplace : (BitVec.ofNat 11 (exponent + 1023 + 52).toNat).toNat =
        (exponent + 1023 + 52).toNat := by
      rw [BitVec.toNat_ofNat, Nat.mod_eq_of_lt (by omega)]
    have hnonzero : BitVec.ofNat 11 (exponent + 1023 + 52).toNat ≠ 0#11 := by
      intro hzero
      rw [hzero] at hplace
      change 0 = _ at hplace
      omega
    have hspecial : BitVec.ofNat 11 (exponent + 1023 + 52).toNat ≠ -1#11 := by
      intro hlast
      rw [hlast] at hplace
      change 2047 = _ at hplace
      omega
    have hbits : (1#1 ++ BitVec.ofNat 52 mantissa).toNat = mantissa := by
      rw [toNat_implicit, BitVec.toNat_ofNat]
      omega
    have hexponent : ((exponent + 1023 + 52).toNat : Int) - 1075 = exponent := by omega
    rw [pack_finite hpos sign hgreatest, if_pos (by rw [log2_of_full hlow hlt]),
      unpack_packComponents _ _ _ hspecial]
    simp only [hnonzero, if_false, hplace, hbits, hexponent]

end Bhasha.Number
