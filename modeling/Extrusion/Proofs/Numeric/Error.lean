import Mathlib
import Extrusion.Proofs.Numeric.Arithmetic

/-!
# The error of rounding

A quotient is at most half a unit of the last place away from the double
nearest to it, which is a small share of the quotient unless that is tiny.
-/

namespace Extrusion
namespace Numeric
namespace Double

open Float.Model Float.Model.UnpackedFloat

theorem roundDiv_cases (tie : Tie) (n : Nat) {d : Nat} (hd : 0 < d) :
    roundDiv tie n d = n / d ∧ 2 * (n % d) ≤ d ∨
      roundDiv tie n d = n / d + 1 ∧ d ≤ 2 * (n % d) := by
  have hlt := Nat.mod_lt n hd
  unfold roundDiv
  simp only
  split
  · omega
  · split
    · omega
    · cases tie with
      | toEven =>
          simp only
          rcases Nat.mod_two_eq_zero_or_one (n / d) with h | h <;> omega
      | away => exact Or.inr ⟨rfl, by omega⟩

theorem abs_roundDiv_sub_le (tie : Tie) (n : Nat) {d : Nat} (hd : 0 < d) :
    |(roundDiv tie n d : ℚ) - n / d| ≤ 1 / 2 := by
  have hd' : (0 : ℚ) < d := by exact_mod_cast hd
  have hquotient : (n : ℚ) / d = (n / d : Nat) + (n % d : Nat) / d := by
    have hn : (n : ℚ) = d * (n / d : Nat) + (n % d : Nat) := by
      exact_mod_cast (Nat.div_add_mod n d).symm
    rw [div_eq_iff hd'.ne', add_mul, div_mul_cancel₀ _ hd'.ne', mul_comm]
    exact hn
  have hlt : ((n % d : Nat) : ℚ) / d < 1 := by
    rw [div_lt_one hd']
    exact_mod_cast Nat.mod_lt n hd
  have hnonneg : 0 ≤ ((n % d : Nat) : ℚ) / d := by positivity
  rw [hquotient, abs_le]
  rcases roundDiv_cases tie n hd with ⟨hround, hle⟩ | ⟨hround, hle⟩
  · have hhalf : ((n % d : Nat) : ℚ) / d ≤ 1 / 2 := by
      rw [div_le_div_iff₀ hd' two_pos]
      exact_mod_cast by omega
    rw [hround]
    constructor <;> linarith
  · have hhalf : 1 / 2 ≤ ((n % d : Nat) : ℚ) / d := by
      rw [div_le_div_iff₀ two_pos hd']
      exact_mod_cast by omega
    rw [hround]
    push_cast
    constructor <;> linarith

theorem roundDiv_of_near (tie : Tie) {n d k : Nat} (hd : 0 < d)
    (h : |(n : ℚ) / d - k| < 1 / 2) : roundDiv tie n d = k := by
  have hnear := abs_roundDiv_sub_le tie n hd
  have hlt : |(roundDiv tie n d : ℚ) - k| < 1 := by
    calc |(roundDiv tie n d : ℚ) - k|
        = |((roundDiv tie n d : ℚ) - n / d) + ((n : ℚ) / d - k)| := by ring_nf
      _ ≤ |(roundDiv tie n d : ℚ) - n / d| + |(n : ℚ) / d - k| := abs_add_le _ _
      _ < 1 := by linarith
  have hint : |((roundDiv tie n d : ℤ) - (k : ℤ))| < 1 := by exact_mod_cast hlt
  have hzero := Int.abs_lt_one_iff.mp hint
  omega

section

variable {num den : Nat}

theorem round_bounds (hnum : 0 < num) (hden : 0 < den) :
    (BinaryFormat.double.round num den).1 ≤ 2 ^ 53 ∧
      -1074 ≤ (BinaryFormat.double.round num den).2 ∧
      ((BinaryFormat.double.round num den).2 = -1074 ∨
        2 ^ 52 ≤ (BinaryFormat.double.round num den).1) := by
  have hexponent : BinaryFormat.double.exponentFor num den =
      max (-1074) (Int.log 2 ((num : ℚ) / den) - 53 + 1) :=
    BinaryFormat.exponentFor_eq hnum hden
  have hquotient : (0 : ℚ) < (num : ℚ) / den := by positivity
  rw [BinaryFormat.round_of_ne_zero hnum.ne']
  generalize BinaryFormat.double.exponentFor num den = E at hexponent ⊢
  have hpos := scaleDown_den_pos two_pos hden num E
  have hfits := (BinaryFormat.double.fits_iff hnum hden E).mpr (by
    show _ < E + 53
    omega)
  have hcases := roundDiv_cases .toEven (scaleDown 2 num den E).1 hpos
  have hhigh : (scaleDown 2 num den E).1 / (scaleDown 2 num den E).2 < 2 ^ 53 :=
    Nat.div_lt_of_lt_mul hfits
  refine ⟨by simp only; omega, by simp only; omega, ?_⟩
  by_cases hleast : E = -1074
  · exact Or.inl hleast
  · right
    -- One bit less would not do.
    have hnot := mt (BinaryFormat.fits_iff ⟨52, -1074⟩ hnum hden E).mp (by
      show ¬ _ < E + 52
      omega)
    have hlow : 2 ^ 52 ≤ (scaleDown 2 num den E).1 / (scaleDown 2 num den E).2 := by
      rw [Nat.le_div_iff_mul_le hpos, Nat.mul_comm]
      exact Nat.le_of_not_lt hnot
    simp only
    omega

theorem abs_significand_sub_le (hden : 0 < den) (num : Nat) (e : Int) :
    |(roundDiv .toEven (scaleDown 2 num den e).1 (scaleDown 2 num den e).2 : ℚ) * (2 : ℚ) ^ e -
      num / den| ≤ (2 : ℚ) ^ e / 2 := by
  have hnear := abs_roundDiv_sub_le .toEven (scaleDown 2 num den e).1
    (scaleDown_den_pos two_pos hden num e)
  rw [cast_scaleDown two_pos, Nat.cast_ofNat] at hnear
  generalize roundDiv .toEven (scaleDown 2 num den e).1 (scaleDown 2 num den e).2 = m at hnear ⊢
  have hscale : (0 : ℚ) < (2 : ℚ) ^ e := by positivity
  calc |(m : ℚ) * (2 : ℚ) ^ e - num / den|
      = |(m : ℚ) - num / den / (2 : ℚ) ^ e| * (2 : ℚ) ^ e := by
        rw [← abs_of_pos hscale, ← abs_mul, abs_of_pos hscale, sub_mul,
          div_mul_cancel₀ _ hscale.ne']
    _ ≤ 1 / 2 * (2 : ℚ) ^ e := by gcongr
    _ = (2 : ℚ) ^ e / 2 := by ring

/-- A rounded significand is decoded with the same value; after a carry it is the
next power of two. -/
theorem exists_ofFloat_of_rounded (negative : Bool) {m : Nat} {e : Int} (hm : m ≤ 2 ^ 53)
    (hlow : -1074 ≤ e) (hhigh : e ≤ 970) (hleading : e = -1074 ∨ 2 ^ 52 ≤ m) :
    ∃ n f, ofFloat (assemble negative (magnitudeBits m e)) = .finite negative n f ∧
      Decoded n f ∧ (n : ℚ) * (2 : ℚ) ^ f = m * (2 : ℚ) ^ e := by
  rcases Nat.lt_or_eq_of_le hm with hlt | rfl
  · have hdecoded : Decoded m e := ⟨hlt, hlow, by omega, hleading⟩
    exact ⟨m, e, ofFloat_assemble negative hdecoded, hdecoded, rfl⟩
  · have hdecoded : Decoded (2 ^ 52) (e + 1) :=
      ⟨by norm_num, by omega, by omega, Or.inr le_rfl⟩
    have hbits : magnitudeBits (2 ^ 53) e = magnitudeBits (2 ^ 52) (e + 1) := by
      rw [magnitudeBits_eq, magnitudeBits_eq]
      omega
    refine ⟨2 ^ 52, e + 1, ?_, hdecoded, ?_⟩
    · rw [hbits]
      exact ofFloat_assemble negative hdecoded
    · rw [zpow_add₀ two_ne_zero]
      push_cast
      ring

theorem exists_ofFloat_nearest (negative : Bool) {k : Nat} (hnum : 0 < num) (hden : 0 < den)
    (hk : k ≤ 1023) (hhigh : (num : ℚ) / den < 2 ^ k) :
    ∃ m e, ofFloat (nearest negative num den) = .finite negative m e ∧ Decoded m e ∧
      |(m : ℚ) * (2 : ℚ) ^ e - num / den| ≤
        (2 : ℚ) ^ (max (-1074) (Int.log 2 ((num : ℚ) / den) - 53 + 1)) / 2 := by
  have hquotient : (0 : ℚ) < (num : ℚ) / den := by positivity
  have hexponent : BinaryFormat.double.exponentFor num den =
      max (-1074) (Int.log 2 ((num : ℚ) / den) - 53 + 1) :=
    BinaryFormat.exponentFor_eq hnum hden
  have hlog : Int.log 2 ((num : ℚ) / den) < k := by
    rw [← Int.lt_zpow_iff_log_lt one_lt_two hquotient]
    exact_mod_cast hhigh
  have hbounds := round_bounds hnum hden
  have hround := @BinaryFormat.round_of_ne_zero .double num den hnum.ne'
  have herror := abs_significand_sub_le hden num (BinaryFormat.double.exponentFor num den)
  rw [← hexponent, nearest_eq]
  rw [hround] at hbounds ⊢
  rcases exists_ofFloat_of_rounded negative hbounds.1 hbounds.2.1 (by simp only; omega)
    hbounds.2.2 with ⟨m, e, hofFloat, hm, hvalue⟩
  refine ⟨m, e, hofFloat, hm, ?_⟩
  rw [hvalue]
  exact herror

/-- Rounding a quotient that is not too small changes it by a share of its
own. -/
theorem exists_ofFloat_nearest_of_normal (negative : Bool) {k : Nat} (hnum : 0 < num)
    (hden : 0 < den) (hk : k ≤ 1023) (hlow : (2 : ℚ) ^ (-1022 : Int) ≤ (num : ℚ) / den)
    (hhigh : (num : ℚ) / den < 2 ^ k) :
    ∃ m e, ofFloat (nearest negative num den) = .finite negative m e ∧ Decoded m e ∧
      |(m : ℚ) * (2 : ℚ) ^ e - num / den| ≤ num / den / 2 ^ 53 := by
  have hquotient : (0 : ℚ) < (num : ℚ) / den := by positivity
  rcases exists_ofFloat_nearest negative hnum hden hk hhigh with ⟨m, e, hofFloat, hm, herror⟩
  refine ⟨m, e, hofFloat, hm, herror.trans ?_⟩
  have hlog : -1022 ≤ Int.log 2 ((num : ℚ) / den) :=
    (Int.zpow_le_iff_le_log one_lt_two hquotient).mp (by exact_mod_cast hlow)
  have hself : (2 : ℚ) ^ Int.log 2 ((num : ℚ) / den) ≤ num / den := by
    exact_mod_cast Int.zpow_log_le_self one_lt_two hquotient
  rw [max_eq_right (by omega), sub_add_eq_add_sub, zpow_sub₀ two_ne_zero, zpow_add₀ two_ne_zero]
  calc (2 : ℚ) ^ Int.log 2 ((num : ℚ) / den) * 2 ^ (1 : Int) / 2 ^ (53 : Int) / 2
      = (2 : ℚ) ^ Int.log 2 ((num : ℚ) / den) / 2 ^ 53 := by
        rw [zpow_one, show ((2 : ℚ) ^ (53 : Int)) = 2 ^ 53 from zpow_natCast 2 53]
        ring
    _ ≤ num / den / 2 ^ 53 := by gcongr

end

end Double
end Numeric
end Extrusion
