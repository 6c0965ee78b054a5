import Mathlib
import Extrusion.Proofs.Numeric.Operations

/-!
# Roots

The root of a positive double is what a number rounds to whose square is close
to the double: the integral root of a significand of enough bits, and a quarter
or three quarters more where that is not exact.
-/

namespace Extrusion
namespace Numeric
namespace Double

open Float.Model Float.Model.UnpackedFloat

theorem exists_represents_quarters (m : Nat) (acc : Accuracy) :
    ∃ c < 4, Represents (.ofMantissaAndAccuracy m acc) (4 * m + c) 4 := by
  have hmantissa (c : Nat) (hc : c < 4) : m = (4 * m + c) / 4 := by omega
  have hmod (c : Nat) (hc : c < 4) : (4 * m + c) % 4 = c := by omega
  cases acc with
  | exact =>
      refine ⟨0, by norm_num, hmantissa 0 (by norm_num), ?_, ?_⟩ <;>
        simp [ExtendedMantissa.ofMantissaAndAccuracy]
  | inexact o =>
      cases o with
      | lt =>
          refine ⟨1, by norm_num, hmantissa 1 (by norm_num), ?_, ?_⟩ <;>
            simp [ExtendedMantissa.ofMantissaAndAccuracy, hmod]
      | eq =>
          refine ⟨2, by norm_num, hmantissa 2 (by norm_num), ?_, ?_⟩ <;>
            simp [ExtendedMantissa.ofMantissaAndAccuracy, hmod]
      | gt =>
          refine ⟨3, by norm_num, hmantissa 3 (by norm_num), ?_, ?_⟩ <;>
            simp [ExtendedMantissa.ofMantissaAndAccuracy, hmod]

/-- The exponent that a root is computed at leaves its radicand enough bits. -/
theorem leading_sqrt {m : Nat} {e t : Int} (hm : 0 < m) (he : -1074 ≤ e)
    (ht : t = min (e / 2) (max ((totalExponent m e + 1) / 2 - 53) (-1074))) :
    2 * t ≤ e ∧ 2 ^ 52 ≤ (m <<< (e - 2 * t).toNat).sqrt := by
  unfold totalExponent at ht
  have hle : 2 * t ≤ e := by omega
  refine ⟨hle, ?_⟩
  have hlog : 104 ≤ (m <<< (e - 2 * t).toNat).log2 := by
    rw [log2_shiftLeft hm]
    omega
  have hne : m <<< (e - 2 * t).toNat ≠ 0 := by
    rw [Nat.shiftLeft_eq]
    positivity
  rw [Nat.le_sqrt']
  calc (2 ^ 52) ^ 2 = 2 ^ 104 := by norm_num
    _ ≤ _ := (Nat.le_log2 hne).mp hlog

/-- A number within a unit of an integral root of some size has a square close to
the radicand. -/
theorem abs_square_sub_le {q : ℚ} {n : Nat} (hleading : 2 ^ 52 ≤ n.sqrt)
    (hlow : (n.sqrt : ℚ) ≤ q) (hhigh : q ≤ n.sqrt + 1) : |q * q - n| ≤ n / 2 ^ 50 := by
  have hroot : (n.sqrt : ℚ) * n.sqrt ≤ n := by exact_mod_cast n.sqrt_le
  have hnext : (n : ℚ) ≤ (n.sqrt + 1) * (n.sqrt + 1) := by
    exact_mod_cast (Nat.lt_succ_sqrt n).le
  have hleading' : (2 : ℚ) ^ 52 ≤ n.sqrt := by exact_mod_cast hleading
  generalize (n.sqrt : ℚ) = r at *
  generalize (n : ℚ) = v at *
  have hshare : 2 * r + 1 ≤ v / 2 ^ 50 := by
    rw [le_div_iff₀ (by positivity)]
    nlinarith
  have hsquare_low : r * r ≤ q * q := by nlinarith
  have hsquare_high : q * q ≤ (r + 1) * (r + 1) := by nlinarith
  rw [abs_le]
  constructor <;> nlinarith

theorem exists_rounds_quarters {x : Float} {root : Nat} {t : Int} {acc : Accuracy}
    (hleading : 2 ^ 52 ≤ root)
    (h : x.toBits.toNat = (UnpackedFloat.pack .binary64
      (roundWithAccuracy .binary64 (signOf false) root t acc)).toNat) :
    ∃ q : ℚ, root ≤ q ∧ q ≤ root + 1 ∧ Rounds (q * (2 : ℚ) ^ t) x := by
  obtain ⟨c, hc, hrepresents⟩ := exists_represents_quarters root acc
  have hden : 0 < 4 * Nat.pow 2 (-t).toNat := Nat.mul_pos four_pos (Nat.pow_pos two_pos)
  have hquotient : (((4 * root + c) * Nat.pow 2 t.toNat : Nat) : ℚ) /
      (4 * Nat.pow 2 (-t).toNat : Nat) =
        ((4 * root + c : Nat) : ℚ) / (4 : Nat) * (2 : ℚ) ^ t := by
    have hpower := cast_mul_pow_div (4 * root + c) two_pos t
    rw [Nat.cast_mul 4, mul_comm ((4 : Nat) : ℚ), ← div_div, hpower, Nat.cast_ofNat]
    ring
  have hlog : 52 ≤ root.log2 := (Nat.le_log2 (by omega)).mpr hleading
  have hnearest := eq_nearest_of_round h hrepresents (by omega) (by norm_num) hden
    (by omega) (by omega) hquotient
  have hc_nonneg : (0 : ℚ) ≤ c := Nat.cast_nonneg c
  have hc_le : (c : ℚ) ≤ 4 := by exact_mod_cast hc.le
  refine ⟨((4 * root + c : Nat) : ℚ) / (4 : Nat), ?_, ?_, false, _, _, hden, hquotient.symm, hnearest⟩
  · push_cast
    linarith
  · push_cast
    linarith

theorem exists_radicand {x : Float} (hx : IsFinite x) (hpos : 0 < value x) :
    ∃ (n : Nat) (t : Int) (acc : Accuracy), 2 ^ 52 ≤ n.sqrt ∧
      value x = n * ((2 : ℚ) ^ t * (2 : ℚ) ^ t) ∧
        x.sqrt.toBits.toNat = (UnpackedFloat.pack .binary64
          (roundWithAccuracy .binary64 (signOf false) n.sqrt t acc)).toNat := by
  rcases exists_value hx with ⟨negative, m, e, hofFloat, hdecoded, hvalue⟩
  have hm : 0 < m := by
    apply Nat.pos_of_ne_zero
    rintro rfl
    rw [value_of_zero hofFloat] at hpos
    exact lt_irrefl _ hpos
  have hfalse : negative = false := by
    cases negative
    · rfl
    · have hnonneg : (0 : ℚ) ≤ m * (2 : ℚ) ^ e := by positivity
      rw [hvalue] at hpos
      exact absurd hpos (not_lt.mpr (neg_nonpos.mpr hnonneg))
  subst hfalse
  obtain ⟨t, ht⟩ : ∃ t, t = min (e / 2) (max ((totalExponent m e + 1) / 2 - 53) (-1074)) :=
    ⟨_, rfl⟩
  obtain ⟨hshift, hleading⟩ := leading_sqrt hm hdecoded.least ht
  obtain ⟨acc, hbits⟩ : ∃ acc, x.sqrt.toBits.toNat = (UnpackedFloat.pack .binary64
      (roundWithAccuracy .binary64 (signOf false) (m <<< (e - 2 * t).toNat).sqrt t acc)).toNat := by
    have hsqrt : x.sqrt.toBits.toNat =
        (UnpackedFloat.pack .binary64 (UnpackedFloat.sqrt .binary64 x.toModel.unpack)).toNat := rfl
    rw [unpack_eq_unpackedOf hofFloat, unpackedOf_of_pos _ _ hm] at hsqrt
    rw [hsqrt, ht]
    exact ⟨_, rfl⟩
  refine ⟨m <<< (e - 2 * t).toNat, t, acc, hleading, ?_, hbits⟩
  rw [hvalue, Nat.shiftLeft_eq, ← zpow_add₀ two_ne_zero]
  push_cast
  rw [mul_assoc, ← zpow_natCast, ← zpow_add₀ two_ne_zero]
  show (m : ℚ) * _ = _
  congr 2
  omega

/-- A root is what a number rounds to whose square is close to the radicand. -/
theorem rounds_sqrt {x : Float} (hx : IsFinite x) (hpos : 0 < value x) :
    ∃ q, Rounds q x.sqrt ∧ 0 ≤ q ∧ |q * q - value x| ≤ value x / 2 ^ 50 := by
  rcases exists_radicand hx hpos with ⟨n, t, acc, hleading, hradicand, hbits⟩
  rcases exists_rounds_quarters hleading hbits with ⟨q, hlow, hhigh, hrounds⟩
  have hq : 0 ≤ q := (Nat.cast_nonneg _).trans hlow
  have hclose := abs_square_sub_le hleading hlow hhigh
  have hscale : (0 : ℚ) ≤ (2 : ℚ) ^ t * (2 : ℚ) ^ t := by positivity
  refine ⟨q * (2 : ℚ) ^ t, hrounds, by positivity, ?_⟩
  rw [hradicand]
  calc |q * (2 : ℚ) ^ t * (q * (2 : ℚ) ^ t) - n * ((2 : ℚ) ^ t * (2 : ℚ) ^ t)|
      = |(q * q - n) * ((2 : ℚ) ^ t * (2 : ℚ) ^ t)| := by
        congr 1
        ring
    _ = |q * q - n| * ((2 : ℚ) ^ t * (2 : ℚ) ^ t) := by rw [abs_mul, abs_of_nonneg hscale]
    _ ≤ n / 2 ^ 50 * ((2 : ℚ) ^ t * (2 : ℚ) ^ t) := mul_le_mul_of_nonneg_right hclose hscale
    _ = _ := by ring

end Double
end Numeric
end Extrusion
