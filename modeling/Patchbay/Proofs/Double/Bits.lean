import Patchbay.Double.Binary

/-!
# Doubles and their bit patterns

A double is its bit pattern (`ofBits_toBits`), so a finite double is given back by the sign and
the magnitude that `view` reads off it (`ofMagnitude_of_view`). Such a magnitude is `Normal`: its
coefficient is below `2 ^ 53`, and at least `2 ^ 52` unless its scale is 0.
-/

namespace Patchbay.Double

open Float.Model (Format UnpackedFloat)
open Float.Model.UnpackedFloat (Sign packComponents unpackSign unpackExponent unpackMantissa)

/-! ## Packing what was unpacked -/

/-- A word is made of its sign, its exponent and its mantissa. -/
theorem pack_parts {b : BitVec Format.binary64.numBits} {e : BitVec 11} {m : BitVec 52}
    (he : unpackExponent b = e) (hm : unpackMantissa b = m) :
    packComponents Format.binary64 (Sign.ofBitVec (unpackSign b)) e m = b := by
  have hs : ∀ s : BitVec 1, (Sign.ofBitVec s).toBitVec = s := by decide
  subst he hm
  rw [packComponents, hs]
  show BitVec.extractLsb 63 63 b ++ BitVec.extractLsb 62 52 b ++ BitVec.extractLsb 51 0 b = b
  ext i hi
  simp only [BitVec.extractLsb, BitVec.getElem_append, BitVec.getElem_extractLsb']
  have hi : i < 64 := hi
  split
  · rw [Nat.zero_add, BitVec.getLsbD_eq_getElem]
  · split
    · rw [Nat.add_sub_cancel' (by omega), BitVec.getLsbD_eq_getElem]
    · rw [show 63 + (i - 52 - 11) = i by omega, BitVec.getLsbD_eq_getElem]

/-- A mantissa that is not zero and has no leading bit is packed under the exponent 0. -/
theorem pack_subnormal (s : Sign) {m : BitVec 52} (hm : 0 < m.toNat) {k : Int} (hk : k = -1074) :
    UnpackedFloat.pack Format.binary64 (.finite s m.toNat k hm) =
      packComponents Format.binary64 s 0 m := by
  subst hk
  have hlt : m.toNat.log2 < 52 := (Nat.log2_lt (by omega)).2 m.isLt
  have hlog : ¬ m.toNat.log2 + 1 = Format.binary64.mantissaBits := by
    have hw : Format.binary64.mantissaBits = 53 := rfl
    omega
  unfold UnpackedFloat.pack
  rw [if_neg (by decide), if_neg hlog, BitVec.ofNat_toNat, BitVec.setWidth_eq]
  rfl

/-- A mantissa with its leading bit is packed under the exponent that it was unpacked from. -/
theorem pack_normal (s : Sign) {e : BitVec 11} (he : e ≠ -1#11) (m : BitVec 52)
    (hm : 0 < (1#1 ++ m).toNat) {k : Int} (hk : k = (e.toNat : Int) - 1075) :
    UnpackedFloat.pack Format.binary64 (.finite s (1#1 ++ m).toNat k hm) =
      packComponents Format.binary64 s e m := by
  subst hk
  have happ : (1#1 ++ m).toNat = 2 ^ 52 + m.toNat := by
    rw [BitVec.toNat_append, ← Nat.shiftLeft_add_eq_or_of_lt m.isLt]
    simp [Nat.shiftLeft_eq]
  have hm52 := m.isLt
  have hlog : (1#1 ++ m).toNat.log2 + 1 = Format.binary64.mantissaBits := by
    have h52 : 52 ≤ (1#1 ++ m).toNat.log2 := (Nat.le_log2 (by omega)).2 (by omega)
    have h53 : (1#1 ++ m).toNat.log2 < 53 := (Nat.log2_lt (by omega)).2 (by omega)
    have hw : Format.binary64.mantissaBits = 53 := rfl
    omega
  have hbias : ((e.toNat : Int) - 1075 + (Format.binary64.exponentBias : Nat) +
      (Format.binary64.mantissaBitsWithoutImplicit : Nat)).toNat = e.toNat := by
    have hb : (Format.binary64.exponentBias : Int) = 1023 := rfl
    have hw : (Format.binary64.mantissaBitsWithoutImplicit : Int) = 52 := rfl
    rw [hb, hw]
    omega
  have hmax : ¬ 2 ^ Format.binary64.exponentBits ≤ e.toNat + 1 := by
    intro h
    have hlt : e.toNat < 2048 := e.isLt
    have h' : 2048 ≤ e.toNat + 1 := h
    refine he (BitVec.eq_of_toNat_eq ?_)
    show e.toNat = 2047
    omega
  unfold UnpackedFloat.pack
  rw [hbias, if_neg hmax, if_pos hlog, BitVec.ofNat_toNat, BitVec.setWidth_eq]
  congr 1
  apply BitVec.eq_of_toNat_eq
  rw [BitVec.toNat_ofNat, happ]
  show (2 ^ 52 + m.toNat) % 2 ^ 52 = m.toNat
  omega

/-- A word that is not one of the unused patterns of a NaN is packed from what it unpacks to. -/
theorem pack_unpack {b : BitVec Format.binary64.numBits} (hb : Format.binary64.Valid b) :
    UnpackedFloat.pack Format.binary64 (UnpackedFloat.unpack Format.binary64 b) = b := by
  unfold UnpackedFloat.unpack
  dsimp only
  by_cases he : unpackExponent b = -1#11
  · rw [if_pos he]
    by_cases hm : unpackMantissa b = 0#52
    · rw [if_pos hm]
      exact pack_parts he hm
    · rw [if_neg hm]
      exact (hb.eq_packedNaN he hm).symm
  · rw [if_neg he]
    by_cases hz : unpackExponent b = 0#11
    · rw [if_pos hz]
      by_cases hm : unpackMantissa b = 0#52
      · rw [dif_pos hm]
        exact pack_parts hz hm
      · rw [dif_neg hm]
        have hexp : ((unpackExponent b).toNat : Int) - ((Format.binary64.exponentBias : Nat) +
            (Format.binary64.mantissaBitsWithoutImplicit : Nat)) + 1 = -1074 := by
          rw [hz]
          rfl
        exact (pack_subnormal _ _ hexp).trans (pack_parts hz rfl)
    · rw [if_neg hz]
      exact (pack_normal _ he _ _ rfl).trans (pack_parts rfl rfl)

/-- The bit pattern of a double gives the double back. -/
@[simp] theorem ofBits_toBits (x : Float) : Float.ofBits x.toBits = x := by
  obtain ⟨⟨bits, valid⟩⟩ := x
  show Float.ofModel (Float.Model.ofBits bits) = _
  have hbits : (Float.Model.ofBits bits).toBits = bits := by
    show UInt64.ofBitVec (UnpackedFloat.pack .binary64 (.unpack .binary64 bits.toBitVec)) = bits
    rw [pack_unpack valid, UInt64.ofBitVec_toBitVec]
  cases hmodel : Float.Model.ofBits bits with
  | mk bits' valid' =>
    rw [hmodel] at hbits
    cases hbits
    rfl

/-! ## Magnitudes -/

/-- The magnitudes that `view` reads off a finite double: the leading bit is there unless the
scale is 0, and there is no bit pattern beyond the largest double. -/
structure Magnitude.Normal (m : Magnitude) : Prop where
  coefficient_lt : m.coefficient < 2 ^ 53
  le_coefficient : m.scale ≠ 0 → 2 ^ 52 ≤ m.coefficient
  scale_le : m.scale ≤ 2045

theorem Magnitude.normal_ofBits {bits : Nat} (h : bits < infinityBits) : (ofBits bits).Normal := by
  simp only [infinityBits] at h
  unfold ofBits
  split
  · rename_i hb
    refine ⟨?_, fun hne => absurd rfl hne, Nat.zero_le _⟩
    show bits < 2 ^ 53
    omega
  · refine ⟨?_, fun _ => Nat.le_add_right _ _, ?_⟩
    · show 2 ^ 52 + bits % 2 ^ 52 < 2 ^ 53
      omega
    · show bits / 2 ^ 52 - 1 ≤ 2045
      omega

theorem Magnitude.Normal.toBits_lt {m : Magnitude} (h : m.Normal) : m.toBits < infinityBits := by
  have h1 := h.coefficient_lt
  have h2 := h.scale_le
  simp only [toBits, infinityBits]
  omega

/-- What `view` reads off a double makes the double again. -/
theorem ofMagnitude_of_view {x : Float} {negative : Bool} {m : Magnitude}
    (h : view x = .finite negative m) : m.Normal ∧ ofMagnitude negative m = x := by
  have hlt := x.toBits.toNat_lt
  simp only [view] at h
  split at h
  · cases h
  · split at h
    · cases h
    · rename_i h1 h2
      cases h
      refine ⟨Magnitude.normal_ofBits (by omega), ?_⟩
      rw [ofMagnitude, ofSignBits, Magnitude.toBits_ofBits]
      have hbits : x.toBits.toNat % 2 ^ 63 +
          (if decide (2 ^ 63 ≤ x.toBits.toNat) = true then 2 ^ 63 else 0) = x.toBits.toNat := by
        split <;> rename_i hs <;> simp only [decide_eq_true_eq] at hs <;> omega
      rw [hbits, UInt64.ofNat_toNat, ofBits_toBits]

theorem isFinite_iff {x : Float} :
    isFinite x = true ↔ ∃ negative m, view x = .finite negative m := by
  rw [isFinite]
  split
  · rename_i negative m h
    simp [h]
  · rename_i h
    simp only [Bool.false_eq_true, false_iff]
    rintro ⟨negative, m, hv⟩
    exact h negative m hv

end Patchbay.Double
