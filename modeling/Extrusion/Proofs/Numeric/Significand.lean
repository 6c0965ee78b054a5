import Mathlib
import Extrusion.Proofs.Numeric.Double

/-!
# Rounding significands

The arithmetic of doubles keeps two bits behind the significand, and these are
enough to round as the quotient that they stand for.  A carry past the last bit
moves the exponent on.
-/

namespace Extrusion
namespace Numeric
namespace Double

open Float.Model Float.Model.UnpackedFloat

/-- A significand with the two bits that follow it stands for a quotient: the
first one is set from half a unit on, the other one off the halves. -/
structure Represents (em : ExtendedMantissa) (num den : Nat) : Prop where
  mantissa : em.mantissa = num / den
  roundBit : em.roundBit = true ↔ den ≤ 2 * (num % den)
  stickyBit : em.stickyBit = true ↔ num % den ≠ 0 ∧ 2 * (num % den) ≠ den

theorem represents_exact (m : Nat) :
    Represents (.ofMantissaAndAccuracy m .exact) m 1 where
  mantissa := (Nat.div_one m).symm
  roundBit := by simp [ExtendedMantissa.ofMantissaAndAccuracy, Nat.mod_one]
  stickyBit := by simp [ExtendedMantissa.ofMantissaAndAccuracy, Nat.mod_one]

theorem represents_fraction (num : Nat) {den : Nat} (hden : 0 < den) :
    Represents (.ofMantissaAndAccuracy (num / den) (accuracyOfFraction (num % den) den))
      num den := by
  unfold accuracyOfFraction
  by_cases hzero : num % den = 0
  · rw [if_pos hzero]
    refine ⟨rfl, ?_, ?_⟩ <;> simp [ExtendedMantissa.ofMantissaAndAccuracy, hzero, hden.ne']
  · rw [if_neg hzero]
    rcases Nat.lt_trichotomy (2 * (num % den)) den with h | h | h
    · rw [Nat.compare_eq_lt.mpr h]
      refine ⟨rfl, ?_, ?_⟩ <;> simp [ExtendedMantissa.ofMantissaAndAccuracy] <;> omega
    · rw [Nat.compare_eq_eq.mpr h]
      refine ⟨rfl, ?_, ?_⟩ <;> simp [ExtendedMantissa.ofMantissaAndAccuracy] <;> omega
    · rw [Nat.compare_eq_gt.mpr h]
      refine ⟨rfl, ?_, ?_⟩ <;> simp [ExtendedMantissa.ofMantissaAndAccuracy] <;> omega

theorem Represents.shiftRightOne {em : ExtendedMantissa} {num den : Nat}
    (h : Represents em num den) (hden : 0 < den) :
    Represents em.shiftRightOne num (den * 2) := by
  have hlt := Nat.mod_lt num hden
  have hmod : num % (den * 2) = num % den + den * (num / den % 2) := Nat.mod_mul
  refine ⟨?_, ?_, ?_⟩
  · show em.mantissa / 2 = _
    rw [h.mantissa, Nat.div_div_eq_div_mul]
  · show (em.mantissa % 2 != 0) = true ↔ _
    rw [h.mantissa, hmod, bne_iff_ne]
    rcases Nat.mod_two_eq_zero_or_one (num / den) with hbit | hbit <;> rw [hbit] <;> omega
  · show (em.roundBit || em.stickyBit) = true ↔ _
    rw [Bool.or_eq_true, h.roundBit, h.stickyBit, hmod]
    rcases Nat.mod_two_eq_zero_or_one (num / den) with hbit | hbit <;> rw [hbit] <;> omega

theorem Represents.shiftRight {em : ExtendedMantissa} {num den : Nat}
    (h : Represents em num den) (hden : 0 < den) (k : Nat) :
    Represents (em >>> k) num (den * 2 ^ k) := by
  show Represents (k.repeat ExtendedMantissa.shiftRightOne em) _ _
  induction k with
  | zero => simpa [Nat.repeat] using h
  | succ k ih =>
      rw [Nat.repeat, pow_succ, ← Nat.mul_assoc]
      exact ih.shiftRightOne (by positivity)

theorem Represents.roundedMantissa {em : ExtendedMantissa} {num den : Nat}
    (h : Represents em num den) (hden : 0 < den) :
    em.roundedMantissa = roundDiv .toEven num den := by
  have hlt := Nat.mod_lt num hden
  rcases em with ⟨m, round, sticky⟩
  have hm : m = num / den := h.mantissa
  have hround := h.roundBit
  have hsticky := h.stickyBit
  rw [hm]
  unfold roundDiv
  simp only
  cases round with
  | false =>
      have hbelow : 2 * (num % den) < den := by
        simpa using hround
      rw [if_pos hbelow]
      cases sticky <;> rfl
  | true =>
      have hnot : ¬ 2 * (num % den) < den := by
        simpa using hround
      rw [if_neg hnot]
      cases sticky with
      | false =>
          rw [if_neg (by simp at hsticky; omega)]
          rfl
      | true =>
          rw [if_pos (by simp at hsticky; omega)]
          rfl

theorem targetExponent_eq (t : Int) : Format.binary64.targetExponent t = max (t - 53) (-1074) := rfl

theorem shiftToTargetExponent_of_lt {m : Nat} {e : Int} (hm : m < 2 ^ 53) (he : -1074 ≤ e) :
    shiftToTargetExponent .binary64 m e .exact = (⟨m, false, false⟩, e) := by
  have hlog : m.log2 < 53 := by
    by_cases hzero : m = 0
    · rw [hzero]
      decide
    · exact (Nat.log2_lt hzero).mpr hm
  have hamount : (Format.binary64.targetExponent (totalExponent m e) - e).toNat = 0 := by
    rw [targetExponent_eq, totalExponent]
    omega
  unfold shiftToTargetExponent shiftToExponent
  simp only [hamount]
  simp
  rfl

theorem shiftToTargetExponent_top {e : Int} (he : -1074 ≤ e) :
    shiftToTargetExponent .binary64 (2 ^ 53) e .exact = (⟨2 ^ 52, false, false⟩, e + 1) := by
  have hamount :
      (Format.binary64.targetExponent (totalExponent (2 ^ 53) e) - e).toNat = 1 := by
    rw [targetExponent_eq, totalExponent, Nat.log2_two_pow]
    omega
  unfold shiftToTargetExponent shiftToExponent
  simp only [hamount]
  simp
  rfl

/-!
## Packing a rounded significand
-/

theorem toNat_packedInfinity (s : Sign) :
    (packedInfinity .binary64 s).toNat = s.toBitVec.toNat * 2 ^ 63 + infinityBits := by
  unfold packedInfinity
  rw [toNat_packComponents, infinityBits_eq]
  have htop : (-1#11).toNat = 2047 := rfl
  rw [htop]
  simp

theorem toNat_pack_finite (s : Sign) {m : Nat} {e : Int} (pos : 0 < m) (hm : m < 2 ^ 53)
    (he : -1074 ≤ e) (hleading : e = -1074 ∨ 2 ^ 52 ≤ m) :
    (UnpackedFloat.pack .binary64 (.finite s m e pos)).toNat =
      s.toBitVec.toNat * 2 ^ 63 + magnitudeBits m e := by
  have hlog : m.log2 + 1 = 53 ↔ 2 ^ 52 ≤ m := by
    have hlow := Nat.le_log2 (k := 52) pos.ne'
    have hhigh := Nat.log2_lt (k := 53) pos.ne'
    omega
  rw [pack_finite, magnitudeBits_eq]
  by_cases htop : 2 ^ 11 ≤ (e + 1023 + 52).toNat + 1
  · rw [if_pos htop, toNat_packedInfinity, infinityBits_eq]
    omega
  · rw [if_neg htop, infinityBits_eq]
    by_cases hfull : 2 ^ 52 ≤ m
    · rw [if_pos (hlog.mpr hfull), toNat_packComponents, BitVec.toNat_ofNat, BitVec.toNat_ofNat]
      omega
    · rw [if_neg (mt hlog.mp hfull), toNat_packComponents, BitVec.toNat_ofNat, BitVec.toNat_ofNat]
      omega

theorem toNat_pack_zero (s : Sign) :
    (UnpackedFloat.pack .binary64 (.zero s)).toNat = s.toBitVec.toNat * 2 ^ 63 := by
  show (packComponents .binary64 s 0 0).toNat = _
  rw [toNat_packComponents]
  simp

theorem roundDiv_shifted {num den m k : Nat} {e : Int} (hfloor : m = num / den)
    (hk : k = (max (m.log2 + 1 + e - 53) (-1074) - e).toNat)
    (hle : e ≤ max (m.log2 + 1 + e - 53) (-1074)) :
    roundDiv .toEven num (den * 2 ^ k) ≤ 2 ^ 53 ∧
      (max (m.log2 + 1 + e - 53) (-1074) = -1074 ∨
        2 ^ 52 ≤ roundDiv .toEven num (den * 2 ^ k)) := by
  have hquotient : num / (den * 2 ^ k) = m / 2 ^ k := by
    rw [hfloor, Nat.div_div_eq_div_mul]
  have hlow : num / (den * 2 ^ k) ≤ roundDiv .toEven num (den * 2 ^ k) := by
    unfold roundDiv
    simp only
    split
    · exact Nat.le_refl _
    · split <;> omega
  have hhigh := roundDiv_le .toEven num (den * 2 ^ k)
  rw [hquotient] at hlow hhigh
  have hlt : m / 2 ^ k < 2 ^ 53 := by
    apply Nat.div_lt_of_lt_mul
    rw [← pow_add]
    refine Nat.lt_of_lt_of_le Nat.lt_log2_self (Nat.pow_le_pow_right two_pos ?_)
    omega
  refine ⟨by omega, ?_⟩
  by_cases hleast : max (m.log2 + 1 + e - 53) (-1074) = -1074
  · exact Or.inl hleast
  · right
    have hm : m ≠ 0 := by
      rintro rfl
      rw [Nat.log2_zero] at hle hleast
      omega
    refine Nat.le_trans ?_ hlow
    rw [Nat.le_div_iff_mul_le (by positivity), ← pow_add]
    refine Nat.le_trans (Nat.pow_le_pow_right two_pos ?_) (Nat.log2_self_le hm)
    omega

/-- A carry moves the significand on by one bit. -/
theorem toNat_pack_carried (s : Sign) {m : Nat} {e : Int} (hm : m ≤ 2 ^ 53) (he : -1074 ≤ e)
    (hleading : e = -1074 ∨ 2 ^ 52 ≤ m) :
    (UnpackedFloat.pack .binary64
      (if h : (shiftToTargetExponent .binary64 m e .exact).1.mantissa = 0 then .zero s
      else .finite s (shiftToTargetExponent .binary64 m e .exact).1.mantissa
        (shiftToTargetExponent .binary64 m e .exact).2 (Nat.pos_of_ne_zero h))).toNat =
      s.toBitVec.toNat * 2 ^ 63 + magnitudeBits m e := by
  rcases Nat.lt_or_eq_of_le hm with hlt | rfl
  · simp only [shiftToTargetExponent_of_lt hlt he]
    split
    · rename_i hzero
      rw [toNat_pack_zero, magnitudeBits_eq]
      omega
    · exact toNat_pack_finite s _ hlt he hleading
  · simp only [shiftToTargetExponent_top he]
    rw [dif_neg (by norm_num), toNat_pack_finite s _ (by norm_num) (by omega) (Or.inr le_rfl),
      magnitudeBits_eq, magnitudeBits_eq]
    omega

theorem Represents.floor {num den m : Nat} {acc : Accuracy}
    (h : Represents (.ofMantissaAndAccuracy m acc) num den) : m = num / den := by
  have hm := h.mantissa
  cases acc with
  | exact => exact hm
  | inexact o => cases o <;> exact hm

theorem toNat_pack_roundWithAccuracy (s : Sign) {num den m : Nat} {e E : Int} {acc : Accuracy}
    (hden : 0 < den) (h : Represents (.ofMantissaAndAccuracy m acc) num den)
    (hE : E = max (m.log2 + 1 + e - 53) (-1074)) (hle : e ≤ E) :
    (UnpackedFloat.pack .binary64 (roundWithAccuracy .binary64 s m e acc)).toNat =
      s.toBitVec.toNat * 2 ^ 63 +
        magnitudeBits (roundDiv .toEven num (den * 2 ^ (E - e).toNat)) E := by
  have hbounds := roundDiv_shifted h.floor (e := e) rfl (hE ▸ hle)
  rw [← hE] at hbounds
  have hshift : shiftToTargetExponent .binary64 m e acc =
      (ExtendedMantissa.ofMantissaAndAccuracy m acc >>> (E - e).toNat, E) := by
    have htarget : Format.binary64.targetExponent (totalExponent m e) = E := by
      rw [targetExponent_eq, totalExponent, hE]
    unfold shiftToTargetExponent shiftToExponent
    simp only [htarget]
    congr 1
    omega
  have hrounded := (h.shiftRight hden (E - e).toNat).roundedMantissa (by positivity)
  unfold roundWithAccuracy
  simp only [hshift, hrounded]
  exact toNat_pack_carried s hbounds.1 (by omega) hbounds.2

end Double
end Numeric
end Extrusion
