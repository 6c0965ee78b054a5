import Mathlib
import Extrusion.Proofs.Numeric.Rounding

/-!
# Encoding doubles

A finite double is put together again from its sign, its significand and its
exponent, and it is the nearest double to the number that they denote.
Quotients that are not too large have a finite nearest double.
-/

namespace Extrusion
namespace Numeric
namespace Double

open Float.Model Float.Model.UnpackedFloat

/-!
## Bits
-/

theorem eq_of_toBits {x y : Float} (h : x.toBits = y.toBits) : x = y := by
  apply rank_injective
  rw [rank_eq, rank_eq, h]

theorem ofBits_toBits (x : Float) : Float.ofBits x.toBits = x :=
  eq_of_toBits (congrArg UInt64.ofBitVec (pack_unpack x.toModel.valid))

theorem valid_of_le_infinityBits {b : BitVec 64} (h : b.toNat % 2 ^ 63 ≤ infinityBits) :
    Format.binary64.Valid b where
  eq_packedNaN := by
    intro htop hsome
    have hexponent := exponentField_eq_top_iff.mp htop
    have hmantissa := mantissaField_pos (b := b) hsome
    rw [toNat_exponentField] at hexponent
    rw [toNat_mantissaField] at hmantissa
    rw [infinityBits_eq] at h
    omega

theorem toBits_ofBits {bits : UInt64} (h : bits.toNat % 2 ^ 63 ≤ infinityBits) :
    (Float.ofBits bits).toBits = bits :=
  congrArg UInt64.ofBitVec (pack_unpack (valid_of_le_infinityBits h))

theorem assemble_eq (negative : Bool) (magnitude : Nat) :
    assemble negative magnitude =
      Float.ofBits (UInt64.ofNat (cond negative (2 ^ 63) 0 + magnitude)) := rfl

theorem toNat_toBits_assemble (negative : Bool) {magnitude : Nat}
    (h : magnitude ≤ infinityBits) :
    (assemble negative magnitude).toBits.toNat = cond negative (2 ^ 63) 0 + magnitude := by
  rw [infinityBits_eq] at h
  have hnat : (UInt64.ofNat (cond negative (2 ^ 63) 0 + magnitude)).toNat =
      cond negative (2 ^ 63) 0 + magnitude := by
    apply UInt64.toNat_ofNat_of_lt'
    show _ < 2 ^ 64
    cases negative <;> simp only [cond_true, cond_false] <;> omega
  rw [assemble_eq, toBits_ofBits, hnat]
  rw [hnat, infinityBits_eq]
  cases negative <;> simp only [cond_true, cond_false] <;> omega

/-!
## Finite doubles
-/

def IsFinite (x : Float) : Prop :=
  x.toBits.toNat % 2 ^ 63 < infinityBits

theorem isFinite_assemble (negative : Bool) {magnitude : Nat} (h : magnitude < infinityBits) :
    IsFinite (assemble negative magnitude) := by
  have hbits := toNat_toBits_assemble negative h.le
  unfold IsFinite
  rw [hbits]
  rw [infinityBits_eq] at h ⊢
  cases negative <;> simp only [cond_true, cond_false] <;> omega

theorem ofBits_of_lt {bits : Nat} (h : bits % 2 ^ 63 < infinityBits) :
    ofBits bits =
      .finite (decide (2 ^ 63 ≤ bits)) (ofMagnitudeBits (bits % 2 ^ 63)).1
        (ofMagnitudeBits (bits % 2 ^ 63)).2 :=
  if_pos h

theorem ofMagnitudeBits_eq (bits : Nat) :
    ofMagnitudeBits bits =
      if bits < 2 ^ 52 then (bits, (-1074 : Int))
      else (bits % 2 ^ 52 + 2 ^ 52, ((bits / 2 ^ 52 : Nat) : Int) - 1075) := rfl

theorem magnitudeBits_eq (m : Nat) (e : Int) :
    magnitudeBits m e = min ((e + 1074).toNat * 2 ^ 52 + m) infinityBits := rfl

theorem magnitudeBits_ofMagnitudeBits {bits : Nat} (h : bits < infinityBits) :
    magnitudeBits (ofMagnitudeBits bits).1 (ofMagnitudeBits bits).2 = bits := by
  rw [ofMagnitudeBits_eq, magnitudeBits_eq]
  rw [infinityBits_eq] at h ⊢
  split <;> simp only <;> omega

/-- The significand and the exponent of a finite double. -/
structure Decoded (m : Nat) (e : Int) : Prop where
  precision : m < 2 ^ 53
  least : -1074 ≤ e
  greatest : e ≤ 971
  leading : e = -1074 ∨ 2 ^ 52 ≤ m

theorem decoded_ofMagnitudeBits {bits : Nat} (h : bits < infinityBits) :
    Decoded (ofMagnitudeBits bits).1 (ofMagnitudeBits bits).2 := by
  rw [infinityBits_eq] at h
  rw [ofMagnitudeBits_eq]
  by_cases hsmall : bits < 2 ^ 52
  · rw [if_pos hsmall]
    exact ⟨by omega, by omega, by omega, Or.inl rfl⟩
  · rw [if_neg hsmall]
    exact ⟨by omega, by omega, by omega, Or.inr (Nat.le_add_left _ _)⟩

theorem exists_ofFloat {x : Float} (h : IsFinite x) :
    ∃ negative m e, ofFloat x = .finite negative m e ∧ Decoded m e ∧
      assemble negative (magnitudeBits m e) = x := by
  refine ⟨_, _, _, ofBits_of_lt h, decoded_ofMagnitudeBits h, ?_⟩
  rw [magnitudeBits_ofMagnitudeBits h, assemble_eq]
  have hlt := x.toBits.toNat_lt
  have hbits : cond (decide (2 ^ 63 ≤ x.toBits.toNat)) (2 ^ 63) 0 + x.toBits.toNat % 2 ^ 63 =
      x.toBits.toNat := by
    by_cases hneg : 2 ^ 63 ≤ x.toBits.toNat
    · rw [decide_eq_true hneg, cond_true]
      omega
    · rw [decide_eq_false hneg, cond_false]
      omega
  rw [hbits, UInt64.ofNat_toNat]
  exact ofBits_toBits x

/-!
## Nearest doubles
-/

theorem nearest_eq (negative : Bool) (num den : Nat) :
    nearest negative num den =
      assemble negative (magnitudeBits (BinaryFormat.double.round num den).1
        (BinaryFormat.double.round num den).2) := rfl

theorem nearest_congr (negative : Bool) {num den num' den' : Nat} (hden : 0 < den)
    (hden' : 0 < den') (h : (num : ℚ) / den = (num' : ℚ) / den') :
    nearest negative num den = nearest negative num' den' := by
  rw [nearest_eq, nearest_eq, BinaryFormat.round_congr hden hden' h]

theorem Decoded.holds {m : Nat} {e : Int} (h : Decoded m e) (hpos : 0 < m) :
    BinaryFormat.double.Holds m e where
  pos := hpos
  precision := h.precision
  least := h.least
  leading := by
    rcases h.leading with hleast | hleading
    · exact Or.inl hleast
    · right
      show 2 ^ 53 ≤ 2 * m
      omega

theorem nearest_of_decoded (negative : Bool) {num den m : Nat} {e : Int} (hden : 0 < den)
    (hm : Decoded m e) (hpos : 0 < m) (h : (num : ℚ) / den = m * (2 : ℚ) ^ e) :
    nearest negative num den = assemble negative (magnitudeBits m e) := by
  rw [nearest_eq, BinaryFormat.round_of_holds hden (hm.holds hpos) h]

theorem roundDiv_le (tie : Tie) (n d : Nat) : roundDiv tie n d ≤ n / d + 1 := by
  unfold roundDiv
  simp only
  split
  · exact Nat.le_succ _
  · split
    · exact Nat.le_refl _
    · cases tie with
      | toEven =>
          have := Nat.mod_lt (n / d) two_pos
          simp only
          omega
      | away => exact Nat.le_refl _

theorem isFinite_nearest (negative : Bool) {num den k : Nat} (hden : 0 < den) (hk : k ≤ 1023)
    (h : (num : ℚ) / den < 2 ^ k) : IsFinite (nearest negative num den) := by
  rw [nearest_eq]
  apply isFinite_assemble
  by_cases hnum : num = 0
  · rw [BinaryFormat.round, if_pos hnum]
    decide
  · have hquotient : (0 : ℚ) < (num : ℚ) / den := by
      have := Nat.pos_of_ne_zero hnum
      positivity
    have hlog : Int.log 2 ((num : ℚ) / den) < k := by
      rw [← Int.lt_zpow_iff_log_lt one_lt_two hquotient]
      exact_mod_cast h
    have hexponent : BinaryFormat.double.exponentFor num den ≤ 970 := by
      rw [BinaryFormat.exponentFor_eq (Nat.pos_of_ne_zero hnum) hden]
      show max (-1074 : Int) (_ - 53 + 1) ≤ 970
      omega
    have hsignificand : (scaleDown 2 num den (BinaryFormat.double.exponentFor num den)).1 /
        (scaleDown 2 num den (BinaryFormat.double.exponentFor num den)).2 < 2 ^ 53 := by
      apply Nat.div_lt_of_lt_mul
      apply (BinaryFormat.double.fits_iff (Nat.pos_of_ne_zero hnum) hden _).mpr
      rw [BinaryFormat.exponentFor_eq (Nat.pos_of_ne_zero hnum) hden]
      show _ < max (-1074 : Int) (_ - 53 + 1) + 53
      omega
    have hround := roundDiv_le .toEven
      (scaleDown 2 num den (BinaryFormat.double.exponentFor num den)).1
      (scaleDown 2 num den (BinaryFormat.double.exponentFor num den)).2
    rw [BinaryFormat.round_of_ne_zero hnum, magnitudeBits_eq, infinityBits_eq]
    simp only
    omega

end Double
end Numeric
end Extrusion
