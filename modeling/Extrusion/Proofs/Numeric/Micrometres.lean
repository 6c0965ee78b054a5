import Mathlib
import Extrusion.Proofs.Numeric.Error

/-!
# Whole micrometres

A length that is the double nearest to some thousandths of a millimetre is
unchanged by rounding to thousandths, although neither the product nor the
quotient on the way is exact.
-/

namespace Extrusion
namespace Numeric
namespace Double

open Float.Model Float.Model.UnpackedFloat

theorem ofFloat_thousand : ofFloat 1000.0 = .finite false (1000 * 2 ^ 43) (-43) := by
  decide +kernel

theorem decoded_thousand : Decoded (1000 * 2 ^ 43) (-43) :=
  ⟨by norm_num, by norm_num, by norm_num, Or.inr (by norm_num)⟩

theorem exists_decoded_natCast {k : Nat} (hk : k < 2 ^ 53) :
    ∃ m e, Decoded m e ∧ (k : ℚ) / (1 : Nat) = m * (2 : ℚ) ^ e := by
  rcases Nat.eq_zero_or_pos k with rfl | hpos
  · exact ⟨0, -1074, ⟨by norm_num, by norm_num, by norm_num, Or.inl rfl⟩, by simp⟩
  have hlog : k.log2 < 53 := (Nat.log2_lt hpos.ne').mpr hk
  refine ⟨k * 2 ^ (52 - k.log2), (k.log2 : Int) - 52, ⟨?_, by omega, by omega, Or.inr ?_⟩, ?_⟩
  · calc k * 2 ^ (52 - k.log2) < 2 ^ (k.log2 + 1) * 2 ^ (52 - k.log2) := by
          gcongr
          exact Nat.lt_log2_self
      _ = 2 ^ 53 := by
          rw [← pow_add]
          congr 1
          omega
  · calc 2 ^ 52 = 2 ^ k.log2 * 2 ^ (52 - k.log2) := by
          rw [← pow_add]
          congr 1
          omega
      _ ≤ k * 2 ^ (52 - k.log2) := Nat.mul_le_mul_right _ (Nat.log2_self_le hpos.ne')
  · have hpow : (2 : ℚ) ^ (52 - k.log2) * (2 : ℚ) ^ ((k.log2 : Int) - 52) = 1 := by
      rw [← zpow_natCast, ← zpow_add₀ two_ne_zero]
      have hzero : ((52 - k.log2 : Nat) : Int) + ((k.log2 : Int) - 52) = 0 := by omega
      rw [hzero, zpow_zero]
    push_cast
    rw [mul_assoc, hpow]
    ring

theorem roundToInteger_of_near {x : Float} {negative : Bool} {m k : Nat} {e : Int}
    (h : ofFloat x = .finite negative m e) (hm : Decoded m e)
    (hnear : |(m : ℚ) * (2 : ℚ) ^ e - k| < 1 / 2) :
    roundToInteger x = nearest negative k 1 := by
  have hround : roundToInteger x =
      if 0 ≤ e then x else nearest negative (roundDiv .away m (Nat.pow 2 (-e).toNat)) 1 := by
    unfold roundToInteger
    rw [h]
  rw [hround]
  by_cases he : 0 ≤ e
  · rw [if_pos he]
    lift e to Nat using he
    have hwhole : m * 2 ^ e = k := by
      rw [zpow_natCast] at hnear
      have hint : |((m * 2 ^ e : Nat) : ℤ) - (k : ℤ)| < 1 := by
        have hlt : |((m * 2 ^ e : Nat) : ℚ) - k| < 1 := by
          push_cast
          linarith
        exact_mod_cast hlt
      have hzero := Int.abs_lt_one_iff.mp hint
      omega
    have hself := exists_ofFloat (isFinite_of_ofFloat h)
    rcases hself with ⟨negative', m', e', h', _, hassemble⟩
    rw [h] at h'
    cases h'
    rw [nearest_of_value negative one_pos hm (by rw [← hwhole]; push_cast; simp), hassemble]
  · rw [if_neg he]
    congr 1
    apply roundDiv_of_near _ (Nat.pow_pos two_pos)
    have hvalue := cast_mul_pow_div m two_pos e
    rw [Int.toNat_of_nonpos (by omega), show m * Nat.pow 2 0 = m from Nat.mul_one m] at hvalue
    show |(m : ℚ) / (Nat.pow 2 (-e).toNat : Nat) - k| < 1 / 2
    rw [hvalue]
    exact_mod_cast hnear

theorem exists_mul_thousand_eq_nearest {x : Float} {negative : Bool} {m : Nat} {e : Int}
    (hx : ofFloat x = .finite negative m e) (hm : Decoded m e) :
    ∃ num den, 0 < den ∧ x * 1000.0 = nearest negative num den ∧
      (num : ℚ) / (den : Nat) = 1000 * (m * (2 : ℚ) ^ e) := by
  have hvalue := cast_mul_pow_div (m * (1000 * 2 ^ 43)) two_pos (e + -43)
  have hproduct : ((m * (1000 * 2 ^ 43) : Nat) : ℚ) * ((2 : Nat) : ℚ) ^ (e + -43) =
      1000 * (m * (2 : ℚ) ^ e) := by
    rw [Nat.cast_ofNat, zpow_add₀ two_ne_zero]
    push_cast
    field_simp
    norm_num
    ring
  have hden : 0 < Nat.pow 2 (-(e + -43)).toNat := Nat.pow_pos two_pos
  have hmul : x * 1000.0 = nearest (negative ^^ false)
      (m * (1000 * 2 ^ 43) * Nat.pow 2 (e + -43).toNat) (Nat.pow 2 (-(e + -43)).toNat) :=
    mul_eq_nearest hx ofFloat_thousand hm decoded_thousand hden (by exact_mod_cast hvalue)
  rw [Bool.xor_false] at hmul
  exact ⟨_, _, hden, hmul, hvalue.trans hproduct⟩

theorem exists_ofFloat_mul_thousand (negative : Bool) {k : Nat} (hpos : 0 < k) (hk : k ≤ 2 ^ 50) :
    ∃ m e, ofFloat (nearest negative k 1000 * 1000.0) = .finite negative m e ∧ Decoded m e ∧
      |(m : ℚ) * (2 : ℚ) ^ e - k| < 1 / 2 := by
  have hk' : (k : ℚ) ≤ 2 ^ 50 := by exact_mod_cast hk
  have hpos' : (1 : ℚ) ≤ k := by exact_mod_cast hpos
  have hleast : (2 : ℚ) ^ (-1022 : Int) ≤ 1 / 2 ^ 10 := by
    rw [one_div, ← zpow_natCast, ← zpow_neg]
    exact zpow_le_zpow_right₀ one_le_two (by norm_num)
  have hthousand : (k : ℚ) / (1000 : Nat) = k / 1000 := by norm_num
  -- The quotient and the product are each off by a share of 2 ^ -53 at most.
  rcases exists_ofFloat_nearest_of_normal negative (k := 50) hpos (by norm_num : 0 < 1000)
      (by norm_num) (by rw [hthousand]; linarith) (by rw [hthousand]; linarith) with
    ⟨m, e, hx, hm, hxerror⟩
  rw [hthousand, abs_le] at hxerror
  rcases exists_mul_thousand_eq_nearest hx hm with ⟨num, den, hden, hmul, hvalue⟩
  generalize (m : ℚ) * (2 : ℚ) ^ e = v at hvalue hxerror
  have hnum : 0 < num := by
    apply Nat.pos_of_ne_zero
    rintro rfl
    rw [Nat.cast_zero, zero_div] at hvalue
    linarith
  rcases exists_ofFloat_nearest_of_normal negative (k := 60) hnum hden (by norm_num)
      (by rw [hvalue]; linarith) (by rw [hvalue]; linarith) with ⟨n, f, hy, hn, hyerror⟩
  rw [hvalue, abs_le] at hyerror
  refine ⟨n, f, (congrArg ofFloat hmul).trans hy, hn, ?_⟩
  rw [abs_lt]
  constructor <;> linarith

theorem ofFloat_nearest_natCast (negative : Bool) {k : Nat} (hk : k < 2 ^ 53) :
    ∃ m e, Decoded m e ∧ (k : ℚ) = m * (2 : ℚ) ^ e ∧
      ofFloat (nearest negative k 1) = .finite negative m e := by
  rcases exists_decoded_natCast hk with ⟨m, e, hm, hvalue⟩
  refine ⟨m, e, hm, ?_, ?_⟩
  · rw [← hvalue, Nat.cast_one, div_one]
  · rw [nearest_of_value negative one_pos hm hvalue]
    exact ofFloat_assemble negative hm

/-- Rounding to thousandths gives the double nearest to the number of
thousandths that is rounded to. -/
theorem toMicrometres_of_round {x : Float} {negative : Bool} {k : Nat} (hk : k < 2 ^ 53)
    (h : roundToInteger (x * 1000.0) = nearest negative k 1) :
    Scalar.toMicrometres x = nearest negative k 1000 := by
  show roundToInteger (x * 1000.0) / 1000.0 = _
  rcases ofFloat_nearest_natCast negative hk with ⟨m, e, hm, hvalue, hofFloat⟩
  rw [h, div_eq_nearest hofFloat ofFloat_thousand (by norm_num) (by norm_num : 0 < 1000),
    Bool.xor_false]
  rw [hvalue, sub_neg_eq_add, zpow_add₀ two_ne_zero]
  push_cast
  field_simp
  ring

theorem toMicrometres_nearest (negative : Bool) {k : Nat} (hk : k ≤ 2 ^ 50) :
    Scalar.toMicrometres (nearest negative k 1000) = nearest negative k 1000 := by
  rcases Nat.eq_zero_or_pos k with rfl | hpos
  · cases negative <;> decide +kernel
  · rcases exists_ofFloat_mul_thousand negative hpos hk with ⟨m, e, hofFloat, hm, hnear⟩
    exact toMicrometres_of_round (by omega) (roundToInteger_of_near hofFloat hm hnear)

/-!
## Whole micrometres
-/

/-- A length in millimetres that is as close as doubles get to a whole number of
micrometres, and shorter than a million kilometres. -/
def IsWhole (x : Float) : Prop :=
  ∃ negative k, k ≤ 2 ^ 50 ∧ x = nearest negative k 1000

theorem IsWhole.toMicrometres_add_zero {x : Float} (h : IsWhole x) :
    Scalar.toMicrometres (x + 0) = x ∨ x = -0 ∧ Scalar.toMicrometres (x + 0) = 0 := by
  rcases add_zero x with heq | rfl
  · rcases h with ⟨negative, k, hk, rfl⟩
    rw [heq]
    exact Or.inl (toMicrometres_nearest negative hk)
  · exact Or.inr ⟨rfl, by decide +kernel⟩

theorem magnitude_lt_of_between {x : Float} (hlow : -1125899906842624 < x)
    (hhigh : x < 1125899906842624) : x.toBits.toNat % 2 ^ 63 < 1073 * 2 ^ 52 := by
  have hupper : (1125899906842624 : Float).toBits.toNat = 1073 * 2 ^ 52 := by decide +kernel
  have hlower : (-1125899906842624 : Float).toBits.toNat = 2 ^ 63 + 1073 * 2 ^ 52 := by
    decide +kernel
  have hlt := x.toBits.toNat_lt
  have hbelow := ((lt_iff _ _).mp hlow).2.2
  have habove := ((lt_iff _ _).mp hhigh).2.2
  rw [hlower] at hbelow
  rw [hupper] at habove
  unfold signedMagnitude at hbelow habove
  split at hbelow <;> split at hbelow <;> split at habove <;> omega

theorem roundDiv_le_of_lt (tie : Tie) {n d k : Nat} (hn : n < d * k) : roundDiv tie n d ≤ k := by
  have hle := roundDiv_le tie n d
  have hlt := Nat.div_lt_of_lt_mul hn
  omega

theorem isWhole_toMicrometres {x : Float} (hlow : -1125899906842624 < x * 1000.0)
    (hhigh : x * 1000.0 < 1125899906842624) : IsWhole (Scalar.toMicrometres x) := by
  have hbits := magnitude_lt_of_between hlow hhigh
  have hfinite : IsFinite (x * 1000.0) := by
    unfold IsFinite
    rw [infinityBits_eq]
    omega
  have hofFloat : ofFloat (x * 1000.0) = .finite (decide (2 ^ 63 ≤ (x * 1000.0).toBits.toNat))
      (ofMagnitudeBits ((x * 1000.0).toBits.toNat % 2 ^ 63)).1
      (ofMagnitudeBits ((x * 1000.0).toBits.toNat % 2 ^ 63)).2 := ofBits_of_lt hfinite
  have hdecoded := decoded_ofMagnitudeBits hfinite
  have hexponent : (ofMagnitudeBits ((x * 1000.0).toBits.toNat % 2 ^ 63)).2 ≤ -3 := by
    rw [ofMagnitudeBits_eq]
    split
    · norm_num
    · simp only
      omega
  generalize ofMagnitudeBits ((x * 1000.0).toBits.toNat % 2 ^ 63) = decoded
    at hofFloat hdecoded hexponent
  rcases decoded with ⟨m, e⟩
  simp only at hofFloat hdecoded hexponent
  have hround : roundToInteger (x * 1000.0) =
      nearest (decide (2 ^ 63 ≤ (x * 1000.0).toBits.toNat))
        (roundDiv .away m (2 ^ (-e).toNat)) 1 := by
    unfold roundToInteger
    rw [hofFloat]
    exact if_neg (by omega)
  have hk : roundDiv .away m (2 ^ (-e).toNat) ≤ 2 ^ 50 := by
    apply roundDiv_le_of_lt
    have hprecision := hdecoded.precision
    have hpow : 2 ^ 3 ≤ 2 ^ (-e).toNat := Nat.pow_le_pow_right two_pos (by omega)
    omega
  exact ⟨_, _, hk, toMicrometres_of_round (by omega) hround⟩

end Double
end Numeric
end Extrusion
