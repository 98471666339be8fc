import Patchbay.Double.Reading
import Patchbay.Proofs.Double.Bits

/-!
# Integers that are finite doubles

A bit pattern below that of infinity is the one of its double (`toBits_ofBits_of_lt`), which
therefore is finite. So is the double nearest to an integer of 64 bits (`isFinite_ofInt`).
-/

namespace Patchbay.Double

open Float.Model (Format UnpackedFloat)
open Float.Model.UnpackedFloat (unpackExponent)

/-! ## Bit patterns -/

theorem toNat_unpackExponent (b : BitVec Format.binary64.numBits) :
    (unpackExponent b).toNat = b.toNat / 2 ^ 52 % 2 ^ 11 := by
  show (BitVec.extractLsb 62 52 b).toNat = _
  rw [BitVec.extractLsb_toNat, Nat.shiftRight_eq_div_pow]

/-- A bit pattern below that of infinity, apart from the sign, is the one of its double. -/
theorem toBits_ofBits_of_lt {b : UInt64} (h : b.toNat % 2 ^ 63 < infinityBits) :
    (Float.ofBits b).toBits = b := by
  have hvalid : Format.binary64.Valid b.toBitVec := by
    refine ⟨fun hexponent => ?_⟩
    have htoNat : b.toNat / 2 ^ 52 % 2 ^ 11 = 2047 :=
      (toNat_unpackExponent b.toBitVec).symm.trans (congrArg BitVec.toNat hexponent)
    simp only [infinityBits] at h
    omega
  show UInt64.ofBitVec (UnpackedFloat.pack Format.binary64
    (UnpackedFloat.unpack Format.binary64 b.toBitVec)) = b
  rw [pack_unpack hvalid]

theorem isFinite_ofSignBits (negative : Bool) {bits : Nat} (h : bits < infinityBits) :
    isFinite (ofSignBits negative bits) = true := by
  have hbits : bits < 2 ^ 63 := Nat.lt_trans h (by decide)
  have htoNat : (UInt64.ofNat (bits + if negative then 2 ^ 63 else 0)).toNat % 2 ^ 63 = bits := by
    rw [UInt64.toNat_ofNat']
    cases negative with
    | false =>
      simp only [Bool.false_eq_true, if_false]
      omega
    | true =>
      simp only [if_true]
      omega
  unfold isFinite view
  rw [ofSignBits, toBits_ofBits_of_lt (by rw [htoNat]; exact h)]
  simp only [htoNat]
  rw [if_neg (Nat.not_lt_of_lt h), if_neg (Nat.ne_of_lt h)]

/-! ## Integers -/

/-- The magnitude nearest to a number below `2 ^ (53 + k)` has at most the scale `k`. -/
theorem toBits_nearest_le {num k : Nat} (h : num < 2 ^ (53 + k)) :
    (Magnitude.nearest num 1).toBits ≤ k * 2 ^ 52 + 2 ^ 53 := by
  have hscale : num.log2 - 52 ≤ k := by
    by_cases hnum : num = 0
    · rw [hnum]
      exact Nat.zero_le k
    · have := (Nat.log2_lt hnum).2 h
      omega
  have hlow : num / 2 ^ (num.log2 - 52) < 2 ^ 53 := by
    rw [Nat.div_lt_iff_lt_mul (Nat.two_pow_pos _), ← Nat.pow_add]
    refine Nat.lt_of_lt_of_le Nat.lt_log2_self (Nat.pow_le_pow_right Nat.two_pos ?_)
    omega
  refine Nat.add_le_add (Nat.mul_le_mul_right _ ?_) ?_
  · rw [Magnitude.nearest, Nat.div_one]
    exact hscale
  · rw [Magnitude.nearest, Nat.div_one, Nat.one_mul]
    simp only
    split
    · exact hlow
    · exact Nat.le_of_lt hlow

theorem toBits_nearest_shifted_le {n : Nat} (h : n < 2 ^ 64) (e : Nat) :
    (Magnitude.nearest (n * 2 ^ e) 1).toBits ≤ (11 + e) * 2 ^ 52 + 2 ^ 53 := by
  refine toBits_nearest_le ?_
  have hpow : 2 ^ (53 + (11 + e)) = 2 ^ 64 * 2 ^ e := by
    rw [← Nat.pow_add, ← Nat.add_assoc]
  rw [hpow]
  exact Nat.mul_lt_mul_of_pos_right h (Nat.two_pow_pos e)

/-- The double nearest to an integer of 64 bits is finite. -/
theorem isFinite_ofInt {i : Int} (h : i.natAbs < 2 ^ 64) : isFinite (ofInt i) = true := by
  refine isFinite_ofSignBits _ ?_
  show nearestBits i.natAbs 0 < infinityBits
  generalize i.natAbs = n at h
  have hlog : n.log2 ≤ 63 := by
    by_cases hn : n = 0
    · rw [hn]
      decide
    · have := (Nat.log2_lt hn).2 h
      omega
  have hwidth : nearestBits.natWidth n ≤ 20 := by
    unfold nearestBits.natWidth
    omega
  have hnearest : (Magnitude.nearest (n * 2 ^ 1074) 1).toBits < infinityBits :=
    Nat.lt_of_le_of_lt (toBits_nearest_shifted_le h 1074) (by decide)
  unfold nearestBits
  simp only
  split
  · decide
  · rw [if_neg (by omega), if_neg (by omega), Nat.pow_zero, Nat.mul_one]
    exact Nat.lt_of_le_of_lt (Nat.min_le_left _ _) hnearest

end Patchbay.Double
