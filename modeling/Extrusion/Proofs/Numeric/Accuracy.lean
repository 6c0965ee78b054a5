import Mathlib
import Extrusion.Proofs.Numeric.Comparison

/-!
# Accuracy

Errors of a chain of operations are counted in shares of a size that bounds the
numbers of the chain.  As long as the size is neither too large nor too small,
every operation stays finite and adds one share.
-/

namespace Extrusion
namespace Numeric
namespace Double

/-!
## Bounds
-/

theorem cast_two_pow (k : Nat) : (((2 : Nat) ^ k : Nat) : ℚ) = (2 : ℚ) ^ (k : Int) :=
  (Nat.cast_pow 2 k).trans (zpow_natCast 2 k).symm

theorem Rounds.isFinite_of_abs_le {q : ℚ} {x : Float} (h : Rounds q x)
    (hle : |q| ≤ largest + (2 : ℚ) ^ (969 : Int)) : IsFinite x := by
  have hbound : IsFinite (nearest false ((2 ^ 53 - 1) * 2 ^ 971 + 2 ^ 969) 1) := by
    unfold IsFinite
    decide +kernel
  have hrounds := rounds_nearest false ((2 ^ 53 - 1) * 2 ^ 971 + 2 ^ 969) one_pos
  have hcast : ((2 ^ 53 - 1 : Nat) : ℚ) = 2 ^ 53 - 1 := by norm_num
  refine (h.abs_value_le hrounds (hle.trans (le_of_eq ?_)) hbound).1
  rw [abs_withSign, Nat.cast_one, div_one, Nat.cast_add, Nat.cast_mul, cast_two_pow, cast_two_pow,
    abs_of_nonneg (by positivity), hcast]
  rfl

theorem num_eq_zero_of_nonneg {num den : Nat} (hden : 0 < den)
    (h : 0 ≤ withSign true ((num : ℚ) / den)) : num = 0 := by
  have hzero : (num : ℚ) / den = 0 := le_antisymm (neg_nonneg.mp h) (by positivity)
  have hden_ne : (den : ℚ) ≠ 0 := by exact_mod_cast hden.ne'
  exact_mod_cast (div_eq_zero_iff.mp hzero).resolve_right hden_ne

theorem Rounds.value_nonneg {q : ℚ} {x : Float} (h : Rounds q x) (hq : 0 ≤ q) (hx : IsFinite x) :
    0 ≤ value x := by
  rcases h with ⟨negative, num, den, hden, rfl, rfl⟩
  rw [value_nearest hden hx]
  cases negative
  · exact BinaryFormat.nearestValue_nonneg _ _ _
  · rw [num_eq_zero_of_nonneg hden hq, BinaryFormat.nearestValue_zero]
    exact neg_zero.ge

theorem Rounds.isFinite_or_eq_infinity {q : ℚ} {x : Float} (h : Rounds q x) (hq : 0 ≤ q) :
    IsFinite x ∨ x = infinity false := by
  rcases h with ⟨negative, num, den, hden, rfl, rfl⟩
  rcases nearest_cases negative num hden with ⟨hfinite, _⟩ | ⟨hinfinite, hlarge⟩
  · exact Or.inl hfinite
  · cases negative
    · exact Or.inr hinfinite
    · rw [num_eq_zero_of_nonneg hden hq, BinaryFormat.nearestValue_zero] at hlarge
      exact absurd hlarge (not_le.mpr (by positivity))

theorem Rounds.abs_value_le_zpow {q : ℚ} {x : Float} {k : Int} (h : Rounds q x)
    (hlow : -1022 ≤ k) (hhigh : k ≤ 1023) (hq : |q| ≤ (2 : ℚ) ^ k) :
    IsFinite x ∧ |value x| ≤ (2 : ℚ) ^ k := by
  have hfinite := isFinite_powerOfTwo hlow hhigh
  have hvalue := value_powerOfTwo hlow hhigh
  have hpos : (0 : ℚ) < (2 : ℚ) ^ k := by positivity
  have hle := h.abs_value_le (rounds_value hfinite) (by rwa [hvalue, abs_of_pos hpos]) hfinite
  rwa [hvalue, abs_of_pos hpos] at hle

theorem Rounds.zpow_le_value {q : ℚ} {x : Float} {k : Int} (h : Rounds q x)
    (hlow : -1022 ≤ k) (hhigh : k ≤ 1023) (hq : (2 : ℚ) ^ k ≤ q) (hx : IsFinite x) :
    (2 : ℚ) ^ k ≤ value x := by
  have hvalue := value_powerOfTwo hlow hhigh
  have hpos : (0 : ℚ) < (2 : ℚ) ^ k := by positivity
  have hle := ((rounds_value (isFinite_powerOfTwo hlow hhigh)).abs_value_le h
    (by rwa [hvalue, abs_of_pos hpos, abs_of_pos (hpos.trans_le hq)]) hx).2
  rwa [hvalue, abs_of_pos hpos, abs_of_nonneg (h.value_nonneg (hpos.le.trans hq) hx)] at hle

theorem exists_value_eq_mul {x : Float} (hx : IsFinite x) :
    ∃ k : Int, value x = k * (2 : ℚ) ^ (-1074 : Int) := by
  rcases exists_value hx with ⟨negative, m, e, _, hm, hvalue⟩
  have hleast := hm.least
  have hmultiple : (m : ℚ) * (2 : ℚ) ^ e =
      ((m * 2 ^ (e + 1074).toNat : Int) : ℚ) * (2 : ℚ) ^ (-1074 : Int) := by
    rw [Int.cast_mul, Int.cast_pow, Int.cast_natCast, Int.cast_ofNat, mul_assoc, ← zpow_natCast,
      ← zpow_add₀ two_ne_zero]
    congr 2
    omega
  rw [hvalue, hmultiple]
  cases negative
  · exact ⟨_, rfl⟩
  · refine ⟨-(m * 2 ^ (e + 1074).toNat : Int), ?_⟩
    rw [Int.cast_neg, neg_mul]
    rfl

/-!
## Shares
-/

/-- Sizes from which results are far from overflow and from underflow. -/
structure Moderate (size : ℚ) : Prop where
  low : (2 : ℚ) ^ (-1000 : Int) ≤ size
  high : size ≤ (2 : ℚ) ^ (1022 : Int)

namespace Moderate

variable {size : ℚ}

theorem pos (h : Moderate size) : 0 < size :=
  lt_of_lt_of_le (by positivity) h.low

theorem le_largest (h : Moderate size) : 13 / 4 * size ≤ largest := by
  have htop : (2 : ℚ) ^ (1022 : Int) = 2 ^ 51 * (2 : ℚ) ^ (971 : Int) := by
    rw [← zpow_natCast, ← zpow_add₀ two_ne_zero]
    rfl
  calc 13 / 4 * size ≤ 13 / 4 * (2 ^ 51 * (2 : ℚ) ^ (971 : Int)) := by
        rw [← htop]
        exact mul_le_mul_of_nonneg_left h.high (by norm_num)
    _ = 13 / 4 * 2 ^ 51 * (2 : ℚ) ^ (971 : Int) := (mul_assoc _ _ _).symm
    _ ≤ largest := mul_le_mul_of_nonneg_right (by norm_num) (by positivity)

theorem least_le (h : Moderate size) : (2 : ℚ) ^ (-1075 : Int) ≤ size / 2 ^ 75 := by
  rw [le_div_iff₀ (by positivity), ← zpow_natCast, ← zpow_add₀ two_ne_zero]
  exact h.low

end Moderate

/-- A finite double is within some shares of a number, each a small part of the size. -/
structure Near (size shares q : ℚ) (x : Float) : Prop where
  finite : IsFinite x
  close : |value x - q| ≤ shares * (size / 2 ^ 50)

theorem near_value (size : ℚ) {x : Float} (hx : IsFinite x) : Near size 0 (value x) x where
  finite := hx
  close := by rw [sub_self, abs_zero, zero_mul]

section

variable {size k l p q : ℚ} {x y : Float}

/-- One rounding adds one share. -/
theorem Rounds.near (h : Rounds p x) (hsize : Moderate size) (hk : k ≤ 2 ^ 48)
    (hclose : |p - q| ≤ k * (size / 2 ^ 50)) (hq : |q| ≤ 3 * size) :
    Near size (k + 1) q x := by
  have hpos := hsize.pos
  have hp : |p| ≤ 13 / 4 * size := by
    have htriangle := abs_add_le (p - q) q
    rw [sub_add_cancel] at htriangle
    have hshare : k * (size / 2 ^ 50) ≤ 2 ^ 48 * (size / 2 ^ 50) := by gcongr
    linarith
  have hfinite : IsFinite x := by
    apply h.isFinite_of_abs_le
    exact (hp.trans hsize.le_largest).trans (le_add_of_nonneg_right (by positivity))
  have herror := h.abs_value_sub_le hfinite
  have htiny := hsize.least_le
  refine ⟨hfinite, ?_⟩
  have htriangle := abs_sub_le (value x) p q
  linarith

theorem Near.weaken (hx : Near size k p x) (hsize : Moderate size) (hkl : k ≤ l) (hpq : p = q) :
    Near size l q x where
  finite := hx.finite
  close := by
    have hpos := hsize.pos
    rw [← hpq]
    exact hx.close.trans (by gcongr)

theorem Near.add (hx : Near size k p x) (hy : Near size l q y) (hsize : Moderate size)
    (hkl : k + l ≤ 2 ^ 48) (hlow : -(3 * size) ≤ p + q) (hhigh : p + q ≤ 3 * size) :
    Near size (k + l + 1) (p + q) (x + y) := by
  refine (rounds_add hx.finite hy.finite).near hsize hkl ?_ (abs_le.mpr ⟨hlow, hhigh⟩)
  calc |value x + value y - (p + q)| = |(value x - p) + (value y - q)| := by
        congr 1
        ring
    _ ≤ |value x - p| + |value y - q| := abs_add_le _ _
    _ ≤ k * (size / 2 ^ 50) + l * (size / 2 ^ 50) := add_le_add hx.close hy.close
    _ = (k + l) * (size / 2 ^ 50) := by ring

theorem Near.sub (hx : Near size k p x) (hy : Near size l q y) (hsize : Moderate size)
    (hkl : k + l ≤ 2 ^ 48) (hlow : -(3 * size) ≤ p - q) (hhigh : p - q ≤ 3 * size) :
    Near size (k + l + 1) (p - q) (x - y) := by
  refine (rounds_sub hx.finite hy.finite).near hsize hkl ?_ (abs_le.mpr ⟨hlow, hhigh⟩)
  calc |value x - value y - (p - q)| = |(value x - p) - (value y - q)| := by
        congr 1
        ring
    _ ≤ |value x - p| + |value y - q| := abs_sub _ _
    _ ≤ k * (size / 2 ^ 50) + l * (size / 2 ^ 50) := add_le_add hx.close hy.close
    _ = (k + l) * (size / 2 ^ 50) := by ring

theorem Near.const_mul {c : Float} (hx : Near size k p x) (hc : IsFinite c)
    (hnonneg : 0 ≤ value c) (hsize : Moderate size) (hk : value c * k ≤ 2 ^ 48)
    (hlow : -(3 * size) ≤ value c * p) (hhigh : value c * p ≤ 3 * size) :
    Near size (value c * k + 1) (value c * p) (c * x) := by
  refine (rounds_mul hc hx.finite).near hsize hk ?_ (abs_le.mpr ⟨hlow, hhigh⟩)
  calc |value c * value x - value c * p| = value c * |value x - p| := by
        rw [← mul_sub, abs_mul, abs_of_nonneg hnonneg]
    _ ≤ value c * (k * (size / 2 ^ 50)) := mul_le_mul_of_nonneg_left hx.close hnonneg
    _ = value c * k * (size / 2 ^ 50) := (mul_assoc _ _ _).symm

theorem Near.two_mul (hx : Near size k p x) (hsize : Moderate size) (hk : 2 * k ≤ 2 ^ 48)
    (hlow : -(3 / 2 * size) ≤ p) (hhigh : p ≤ 3 / 2 * size) :
    Near size (2 * k + 1) (2 * p) (2 * x) := by
  have h := hx.const_mul isFinite_two (by rw [value_two]; norm_num) hsize
  rw [value_two] at h
  exact h hk (by linarith) (by linarith)

theorem Near.four_mul (hx : Near size k p x) (hsize : Moderate size) (hk : 4 * k ≤ 2 ^ 48)
    (hlow : -(3 / 4 * size) ≤ p) (hhigh : p ≤ 3 / 4 * size) :
    Near size (4 * k + 1) (4 * p) (4 * x) := by
  have h := hx.const_mul isFinite_four (by rw [value_four]; norm_num) hsize
  rw [value_four] at h
  exact h hk (by linarith) (by linarith)

theorem Near.mul (c d : ℚ) (hx : Near size k p x) (hy : Near size l q y)
    (hsize : Moderate size) (hsquare : Moderate (size * size)) (hp : |p| ≤ c * size)
    (hq : |q| ≤ d * size)
    (hbounds : 0 ≤ k ∧ 0 ≤ l ∧ k + l ≤ 2 ^ 40 ∧ c ≤ 4 ∧ d ≤ 4 ∧ c * d ≤ 3) :
    Near (size * size) (5 * (k + l) + 1) (p * q) (x * y) := by
  rcases hbounds with ⟨hk, hl, hkl, hc, hd, hcd⟩
  have hpos := hsize.pos
  have hbound : |p * q| ≤ 3 * (size * size) := by
    calc |p * q| = |p| * |q| := abs_mul p q
      _ ≤ c * size * (d * size) := mul_le_mul hp hq (abs_nonneg q) (le_trans (abs_nonneg p) hp)
      _ = c * d * (size * size) := by ring
      _ ≤ 3 * (size * size) := by gcongr
  refine (rounds_mul hx.finite hy.finite).near hsquare (by linarith) ?_ hbound
  have hy_abs : |value y| ≤ 5 * size := by
    have htriangle := abs_add_le (value y - q) q
    rw [sub_add_cancel] at htriangle
    have hshare : l * (size / 2 ^ 50) ≤ 2 ^ 40 * (size / 2 ^ 50) := by
      gcongr
      linarith
    have hq' : d * size ≤ 4 * size := by gcongr
    linarith [hy.close]
  have hp' : |p| ≤ 4 * size := hp.trans (by gcongr)
  have hleft : |(value x - p) * value y| ≤ k * (size / 2 ^ 50) * (5 * size) := by
    rw [abs_mul]
    exact mul_le_mul hx.close hy_abs (abs_nonneg _) (by positivity)
  have hright : |p * (value y - q)| ≤ 4 * size * (l * (size / 2 ^ 50)) := by
    rw [abs_mul]
    exact mul_le_mul hp' hy.close (abs_nonneg _) (by positivity)
  calc |value x * value y - p * q| = |(value x - p) * value y + p * (value y - q)| := by
        congr 1
        ring
    _ ≤ |(value x - p) * value y| + |p * (value y - q)| := abs_add_le _ _
    _ ≤ k * (size / 2 ^ 50) * (5 * size) + 4 * size * (l * (size / 2 ^ 50)) :=
        add_le_add hleft hright
    _ = (5 * k + 4 * l) * (size * size / 2 ^ 50) := by ring
    _ ≤ 5 * (k + l) * (size * size / 2 ^ 50) := by
        gcongr
        linarith

end

end Double
end Numeric
end Extrusion
