import Mathlib
import Extrusion.Proofs.Numeric.Error

/-!
# Rounding keeps the order

A quotient that is not above another one does not round above it.  Where both
get the same exponent this is so for the significands; otherwise a power of two
separates them.
-/

namespace Extrusion
namespace Numeric

/-!
## Nearest integers
-/

theorem le_roundDiv (tie : Tie) (n d : Nat) : n / d ≤ roundDiv tie n d := by
  unfold roundDiv
  simp only
  split
  · exact Nat.le_refl _
  · split
    · exact Nat.le_succ _
    · cases tie with
      | toEven => exact Nat.le_add_right _ _
      | away => exact Nat.le_succ _

theorem roundDiv_le_roundDiv (tie : Tie) {n n' : Nat} (d : Nat) (h : n ≤ n') :
    roundDiv tie n d ≤ roundDiv tie n' d := by
  rcases Nat.lt_or_eq_of_le (Nat.div_le_div_right (c := d) h) with hlt | heq
  · calc roundDiv tie n d ≤ n / d + 1 := Double.roundDiv_le tie n d
      _ ≤ n' / d := hlt
      _ ≤ roundDiv tie n' d := le_roundDiv tie n' d
  · -- The whole parts agree, so the rests keep the order.
    have hrest : n % d ≤ n' % d := by
      have hn := Nat.div_add_mod n d
      have hn' := Nat.div_add_mod n' d
      rw [heq] at hn
      omega
    unfold roundDiv
    rw [heq]
    cases tie with
    | toEven =>
        simp only
        have := Nat.mod_two_eq_zero_or_one (n' / d)
        split_ifs <;> omega
    | away =>
        simp only
        split_ifs <;> omega

theorem roundDiv_mono (tie : Tie) {n d n' d' : Nat} (hd : 0 < d) (hd' : 0 < d')
    (h : n * d' ≤ n' * d) : roundDiv tie n d ≤ roundDiv tie n' d' := by
  calc roundDiv tie n d = roundDiv tie (n * d') (d * d') := (roundDiv_mul_right tie n d hd').symm
    _ ≤ roundDiv tie (n' * d) (d * d') := roundDiv_le_roundDiv tie _ h
    _ = roundDiv tie (n' * d) (d' * d) := by rw [Nat.mul_comm d d']
    _ = roundDiv tie n' d' := roundDiv_mul_right tie n' d' hd

namespace BinaryFormat

variable {format : BinaryFormat} {num den num' den' : Nat}

/-!
## Rounded values
-/

def nearestValue (format : BinaryFormat) (num den : Nat) : ℚ :=
  (format.round num den).1 * (2 : ℚ) ^ (format.round num den).2

theorem nearestValue_nonneg (format : BinaryFormat) (num den : Nat) :
    0 ≤ format.nearestValue num den := by
  unfold nearestValue
  positivity

theorem nearestValue_zero (format : BinaryFormat) (den : Nat) :
    format.nearestValue 0 den = 0 := by
  rw [nearestValue, round, if_pos rfl, Nat.cast_zero, zero_mul]

theorem nearestValue_of_pos (hnum : 0 < num) :
    format.nearestValue num den =
      roundDiv .toEven (scaleDown 2 num den (format.exponentFor num den)).1
          (scaleDown 2 num den (format.exponentFor num den)).2 *
        (2 : ℚ) ^ format.exponentFor num den := by
  rw [nearestValue, round_of_ne_zero hnum.ne']

theorem significand_le (hnum : 0 < num) (hden : 0 < den) :
    roundDiv .toEven (scaleDown 2 num den (format.exponentFor num den)).1
      (scaleDown 2 num den (format.exponentFor num den)).2 ≤ 2 ^ format.precision := by
  have hfits := (format.fits_iff hnum hden (format.exponentFor num den)).mpr (by
    rw [exponentFor_eq hnum hden]
    omega)
  calc roundDiv .toEven _ _
      ≤ (scaleDown 2 num den (format.exponentFor num den)).1 /
          (scaleDown 2 num den (format.exponentFor num den)).2 + 1 := Double.roundDiv_le _ _ _
    _ ≤ 2 ^ format.precision := Nat.div_lt_of_lt_mul hfits

theorem le_significand (hnum : 0 < num) (hden : 0 < den) (hprecision : 0 < format.precision)
    (hleast : format.minExponent < format.exponentFor num den) :
    2 ^ (format.precision - 1) ≤
      roundDiv .toEven (scaleDown 2 num den (format.exponentFor num den)).1
        (scaleDown 2 num den (format.exponentFor num den)).2 := by
  -- One bit less would not do.
  have hnot := mt (fits_iff ⟨format.precision - 1, format.minExponent⟩ hnum hden
    (format.exponentFor num den)).mp (by
      rw [exponentFor_eq hnum hden] at hleast ⊢
      show ¬ _ < _ + ((format.precision - 1 : Nat) : Int)
      omega)
  refine le_trans ?_ (le_roundDiv _ _ _)
  rw [Nat.le_div_iff_mul_le (scaleDown_den_pos two_pos hden num _), Nat.mul_comm]
  exact Nat.le_of_not_lt hnot

theorem exponentFor_mono (hnum : 0 < num) (hden : 0 < den) (hnum' : 0 < num') (hden' : 0 < den')
    (h : (num : ℚ) / den ≤ (num' : ℚ) / den') :
    format.exponentFor num den ≤ format.exponentFor num' den' := by
  have hlog := Int.log_mono_right (b := 2) (by positivity : (0 : ℚ) < (num : ℚ) / den) h
  rw [exponentFor_eq hnum hden, exponentFor_eq hnum' hden']
  omega

theorem nearestValue_mono (hprecision : 0 < format.precision) (hden : 0 < den) (hden' : 0 < den')
    (h : (num : ℚ) / den ≤ (num' : ℚ) / den') :
    format.nearestValue num den ≤ format.nearestValue num' den' := by
  rcases Nat.eq_zero_or_pos num with rfl | hnum
  · rw [nearestValue_zero]
    exact nearestValue_nonneg format num' den'
  · have hquotient : (0 : ℚ) < (num : ℚ) / den := by positivity
    have hnum' : 0 < num' := by
      apply Nat.pos_of_ne_zero
      rintro rfl
      rw [Nat.cast_zero, zero_div] at h
      exact absurd hquotient (not_lt.mpr h)
    have hexponent : format.exponentFor num den ≤ format.exponentFor num' den' :=
      exponentFor_mono hnum hden hnum' hden' h
    rw [nearestValue_of_pos hnum, nearestValue_of_pos hnum']
    rcases hexponent.lt_or_eq with hlt | heq
    · -- The lower value is at most, and the upper one at least, a power of two.
      have hhigh := @significand_le format num den hnum hden
      have hlow := le_significand hnum' hden' hprecision
        (lt_of_le_of_lt (by rw [exponentFor_eq hnum hden]; omega) hlt)
      generalize roundDiv .toEven (scaleDown 2 num den _).1 _ = m at hhigh ⊢
      generalize roundDiv .toEven (scaleDown 2 num' den' _).1 _ = m' at hlow ⊢
      have hhigh' : (m : ℚ) ≤ (2 : ℚ) ^ (format.precision : Int) := by exact_mod_cast hhigh
      have hlow' : (2 : ℚ) ^ ((format.precision - 1 : Nat) : Int) ≤ m' := by exact_mod_cast hlow
      calc (m : ℚ) * (2 : ℚ) ^ format.exponentFor num den
          ≤ (2 : ℚ) ^ (format.precision : Int) * (2 : ℚ) ^ format.exponentFor num den := by gcongr
        _ = (2 : ℚ) ^ ((format.precision : Int) + format.exponentFor num den) :=
            (zpow_add₀ two_ne_zero _ _).symm
        _ ≤ (2 : ℚ) ^ (((format.precision - 1 : Nat) : Int) + format.exponentFor num' den') :=
            zpow_le_zpow_right₀ one_le_two (by omega)
        _ = (2 : ℚ) ^ ((format.precision - 1 : Nat) : Int) *
              (2 : ℚ) ^ format.exponentFor num' den' := zpow_add₀ two_ne_zero _ _
        _ ≤ m' * (2 : ℚ) ^ format.exponentFor num' den' := by gcongr
    · rw [heq]
      have hpos := scaleDown_den_pos two_pos hden num (format.exponentFor num' den')
      have hpos' := scaleDown_den_pos two_pos hden' num' (format.exponentFor num' den')
      have hscaled := div_le_div_of_nonneg_right h
        (by positivity : (0 : ℚ) ≤ ((2 : Nat) : ℚ) ^ format.exponentFor num' den')
      rw [← cast_scaleDown two_pos, ← cast_scaleDown two_pos,
        div_le_div_iff₀ (by exact_mod_cast hpos) (by exact_mod_cast hpos')] at hscaled
      have hmono := roundDiv_mono .toEven hpos hpos' (by exact_mod_cast hscaled)
      gcongr

end BinaryFormat

end Numeric
end Extrusion
