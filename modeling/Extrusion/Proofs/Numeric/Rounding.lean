import Mathlib
import Extrusion.Proofs.Numeric.Order

/-!
# Rounding of quotients

What a quotient rounds to depends on its value and not on how it is written,
and a value that the format has is its own rounding.
-/

namespace Extrusion
namespace Numeric

/-!
## Nearest integers
-/

theorem roundDiv_mul_right (tie : Tie) (n d : Nat) {k : Nat} (hk : 0 < k) :
    roundDiv tie (n * k) (d * k) = roundDiv tie n d := by
  have hbelow : 2 * (n % d * k) < d * k ↔ 2 * (n % d) < d := by
    rw [← Nat.mul_assoc]
    exact Nat.mul_lt_mul_right hk
  have habove : d * k < 2 * (n % d * k) ↔ d < 2 * (n % d) := by
    rw [← Nat.mul_assoc]
    exact Nat.mul_lt_mul_right hk
  simp only [roundDiv, Nat.mul_div_mul_right _ _ hk, Nat.mul_mod_mul_right, hbelow, habove]

theorem roundDiv_congr (tie : Tie) {n d n' d' : Nat} (hd : 0 < d) (hd' : 0 < d')
    (h : n * d' = n' * d) : roundDiv tie n d = roundDiv tie n' d' := by
  calc roundDiv tie n d = roundDiv tie (n * d') (d * d') := (roundDiv_mul_right tie n d hd').symm
    _ = roundDiv tie (n' * d) (d' * d) := by rw [h, Nat.mul_comm d d']
    _ = roundDiv tie n' d' := roundDiv_mul_right tie n' d' hd

theorem roundDiv_mul_self (tie : Tie) (m : Nat) {d : Nat} (hd : 0 < d) :
    roundDiv tie (m * d) d = m := by
  unfold roundDiv
  rw [Nat.mul_mod_left, Nat.mul_div_left _ hd]
  exact if_pos hd

/-!
## Quotients as rational numbers
-/

section

variable {num den num' den' : Nat}

theorem mul_eq_mul_of_div_eq (hden : 0 < den) (hden' : 0 < den')
    (h : (num : ℚ) / den = (num' : ℚ) / den') : num * den' = num' * den := by
  have hden_ne : (den : ℚ) ≠ 0 := by exact_mod_cast hden.ne'
  have hden_ne' : (den' : ℚ) ≠ 0 := by exact_mod_cast hden'.ne'
  rw [div_eq_div_iff hden_ne hden_ne'] at h
  exact_mod_cast h

theorem cast_mul_pow_div (n : Nat) {base : Nat} (hbase : 0 < base) (e : Int) :
    ((n * Nat.pow base e.toNat : Nat) : ℚ) / (Nat.pow base (-e).toNat : Nat) =
      n * (base : ℚ) ^ e := by
  have hbase_ne : (base : ℚ) ≠ 0 := by exact_mod_cast hbase.ne'
  rcases Int.le_total 0 e with he | he
  · lift e to Nat using he
    simp [zpow_natCast]
  · obtain ⟨k, rfl⟩ : ∃ k : Nat, e = -k := ⟨(-e).toNat, by omega⟩
    simp [zpow_neg, zpow_natCast, div_eq_mul_inv]

theorem scaleDown_den_pos {base : Nat} (hbase : 0 < base) (hden : 0 < den) (num : Nat) (e : Int) :
    0 < (scaleDown base num den e).2 :=
  Nat.mul_pos hden (Nat.pow_pos hbase)

theorem cast_scaleDown {base : Nat} (hbase : 0 < base) (num den : Nat) (e : Int) :
    ((scaleDown base num den e).1 : ℚ) / (scaleDown base num den e).2 =
      (num : ℚ) / den / (base : ℚ) ^ e := by
  have hpow := cast_mul_pow_div 1 hbase (-e)
  rw [neg_neg] at hpow
  unfold scaleDown
  push_cast at hpow ⊢
  rw [mul_div_mul_comm, div_eq_mul_inv _ ((base : ℚ) ^ e), ← zpow_neg]
  congr 1
  rw [← one_mul ((base : ℚ) ^ (-e)), ← hpow, one_mul]

theorem log_div (hnum : 0 < num) (hden : 0 < den) :
    Int.log 2 ((num : ℚ) / den) = (num.log2 : Int) - den.log2 ∨
      Int.log 2 ((num : ℚ) / den) + 1 = (num.log2 : Int) - den.log2 := by
  have hquotient : (0 : ℚ) < (num : ℚ) / den := by positivity
  have hden' : (0 : ℚ) < den := by exact_mod_cast hden
  have hnum_low : (2 : ℚ) ^ num.log2 ≤ num := by exact_mod_cast Nat.log2_self_le hnum.ne'
  have hnum_high : (num : ℚ) < 2 ^ (num.log2 + 1) := by exact_mod_cast Nat.lt_log2_self
  have hden_low : (2 : ℚ) ^ den.log2 ≤ den := by exact_mod_cast Nat.log2_self_le hden.ne'
  have hden_high : (den : ℚ) < 2 ^ (den.log2 + 1) := by exact_mod_cast Nat.lt_log2_self
  have hlow : (2 : ℚ) ^ ((num.log2 : Int) - den.log2 - 1) ≤ (num : ℚ) / den := by
    have hpow : (2 : ℚ) ^ ((num.log2 : Int) - den.log2 - 1) =
        2 ^ num.log2 / 2 ^ (den.log2 + 1) := by
      rw [sub_sub, zpow_sub₀ two_ne_zero, zpow_natCast]
      norm_cast
    rw [hpow]
    gcongr
  have hhigh : (num : ℚ) / den < (2 : ℚ) ^ ((num.log2 : Int) - den.log2 + 1) := by
    have hpow : (2 : ℚ) ^ ((num.log2 : Int) - den.log2 + 1) =
        2 ^ (num.log2 + 1) / 2 ^ den.log2 := by
      rw [sub_add_eq_add_sub, zpow_sub₀ two_ne_zero, zpow_natCast]
      norm_cast
    rw [hpow, div_lt_div_iff₀ hden' (by positivity)]
    calc (num : ℚ) * 2 ^ den.log2 ≤ num * den := by gcongr
      _ < 2 ^ (num.log2 + 1) * den := by gcongr
  have hle := (Int.zpow_le_iff_le_log one_lt_two hquotient).mp hlow
  have hlt := (Int.lt_zpow_iff_log_lt one_lt_two hquotient).mp hhigh
  omega

end

/-!
## Binary formats
-/

namespace BinaryFormat

section

variable {format : BinaryFormat} {num den num' den' : Nat}

theorem fits_iff (format : BinaryFormat) (hnum : 0 < num) (hden : 0 < den) (e : Int) :
    (scaleDown 2 num den e).1 < (scaleDown 2 num den e).2 * Nat.pow 2 format.precision ↔
      Int.log 2 ((num : ℚ) / den) < e + format.precision := by
  have hquotient : (0 : ℚ) < (num : ℚ) / den := by positivity
  have hpos : (0 : ℚ) < (scaleDown 2 num den e).2 := by
    exact_mod_cast scaleDown_den_pos two_pos hden num e
  rw [← Int.lt_zpow_iff_log_lt one_lt_two hquotient, zpow_add₀ (by norm_num), zpow_natCast,
    mul_comm ((_ : ℚ) ^ e), ← div_lt_iff₀ (by positivity),
    ← cast_scaleDown two_pos num den e, div_lt_iff₀ hpos, mul_comm ((_ : ℚ) ^ _)]
  exact_mod_cast Iff.rfl

theorem exponentFor_eq (hnum : 0 < num) (hden : 0 < den) :
    format.exponentFor num den =
      max format.minExponent (Int.log 2 ((num : ℚ) / den) - format.precision + 1) := by
  have hlog := log_div hnum hden
  unfold exponentFor
  simp only [format.fits_iff hnum hden]
  split <;> omega

theorem round_of_ne_zero (hnum : num ≠ 0) :
    format.round num den =
      (roundDiv .toEven (scaleDown 2 num den (format.exponentFor num den)).1
          (scaleDown 2 num den (format.exponentFor num den)).2,
        format.exponentFor num den) := by
  rw [round, if_neg hnum]

theorem round_congr (hden : 0 < den) (hden' : 0 < den')
    (h : (num : ℚ) / den = (num' : ℚ) / den') : format.round num den = format.round num' den' := by
  have hcross := mul_eq_mul_of_div_eq hden hden' h
  by_cases hnum : num = 0
  · have hnum' : num' = 0 := by
      rw [hnum, Nat.zero_mul] at hcross
      exact (Nat.mul_eq_zero.mp hcross.symm).resolve_right hden.ne'
    rw [round, round, if_pos hnum, if_pos hnum']
  · have hnum' : num' ≠ 0 := by
      intro hzero
      rw [hzero, Nat.zero_mul] at hcross
      exact hnum ((Nat.mul_eq_zero.mp hcross).resolve_right hden'.ne')
    have hexponent : format.exponentFor num den = format.exponentFor num' den' := by
      rw [exponentFor_eq (Nat.pos_of_ne_zero hnum) hden,
        exponentFor_eq (Nat.pos_of_ne_zero hnum') hden', h]
    generalize hexponent' : format.exponentFor num' den' = e at hexponent
    have hpos := scaleDown_den_pos two_pos hden num e
    have hpos' := scaleDown_den_pos two_pos hden' num' e
    have hscaled := mul_eq_mul_of_div_eq hpos hpos' (by
      rw [cast_scaleDown two_pos, cast_scaleDown two_pos, h])
    rw [round_of_ne_zero hnum, round_of_ne_zero hnum', hexponent, hexponent',
      roundDiv_congr _ hpos hpos' hscaled]

/-- A positive significand with an exponent of the format: the leading bit is
set unless the exponent is the least one. -/
structure Holds (format : BinaryFormat) (m : Nat) (e : Int) : Prop where
  pos : 0 < m
  precision : m < 2 ^ format.precision
  least : format.minExponent ≤ e
  leading : e = format.minExponent ∨ 2 ^ format.precision ≤ 2 * m

theorem exponentFor_of_holds {m : Nat} {e : Int} (hden : 0 < den) (hm : format.Holds m e)
    (h : (num : ℚ) / den = m * (2 : ℚ) ^ e) : format.exponentFor num den = e := by
  have hm_pos : (0 : ℚ) < m := by exact_mod_cast hm.pos
  have hquotient : (0 : ℚ) < (num : ℚ) / den := by
    rw [h]
    positivity
  have hnum : 0 < num := by
    apply Nat.pos_of_ne_zero
    rintro rfl
    rw [Nat.cast_zero, zero_div] at hquotient
    exact lt_irrefl 0 hquotient
  have hhigh : Int.log 2 ((num : ℚ) / den) < e + format.precision := by
    rw [← Int.lt_zpow_iff_log_lt one_lt_two hquotient, h, zpow_add₀ (by norm_num), mul_comm]
    have hprecision : (m : ℚ) < 2 ^ format.precision := by exact_mod_cast hm.precision
    exact mul_lt_mul_of_pos_left hprecision (by positivity)
  have hlow : 2 ^ format.precision ≤ 2 * m →
      e + format.precision - 1 ≤ Int.log 2 ((num : ℚ) / den) := by
    intro hleading
    have hleading' : (2 : ℚ) ^ format.precision ≤ 2 * m := by exact_mod_cast hleading
    rw [← Int.zpow_le_iff_le_log one_lt_two hquotient, h, zpow_sub₀ (by norm_num),
      zpow_add₀ (by norm_num), zpow_natCast, zpow_one, Nat.cast_ofNat, div_le_iff₀ two_pos,
      mul_comm ((2 : ℚ) ^ e), mul_right_comm, mul_comm (m : ℚ)]
    gcongr
  have hleast := hm.least
  rw [exponentFor_eq hnum hden]
  rcases hm.leading with heq | hleading
  · omega
  · have hlog := hlow hleading
    omega

theorem round_of_holds {m : Nat} {e : Int} (hden : 0 < den) (hm : format.Holds m e)
    (h : (num : ℚ) / den = m * (2 : ℚ) ^ e) : format.round num den = (m, e) := by
  have hnum : num ≠ 0 := by
    rintro rfl
    have hm_pos : (0 : ℚ) < m := by exact_mod_cast hm.pos
    rw [Nat.cast_zero, zero_div] at h
    exact absurd h.symm (by positivity)
  have hpos := scaleDown_den_pos two_pos hden num e
  have hscaled : (scaleDown 2 num den e).1 * 1 = m * (scaleDown 2 num den e).2 := by
    apply mul_eq_mul_of_div_eq hpos one_pos
    rw [cast_scaleDown two_pos, h, Nat.cast_ofNat, mul_div_cancel_right₀ _ (by positivity),
      Nat.cast_one, div_one]
  rw [Nat.mul_one] at hscaled
  rw [round_of_ne_zero hnum, exponentFor_of_holds hden hm h, hscaled, roundDiv_mul_self _ m hpos]

end

end BinaryFormat

end Numeric
end Extrusion
