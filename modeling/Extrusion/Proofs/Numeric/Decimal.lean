import Mathlib
import Extrusion.Numeric.Shortest
import Extrusion.Proofs.Numeric.Double

/-!
# Doubles of decimals

The double nearest to a decimal depends on the number and not on how its
digits are split between coefficient and exponent.  The shortest decimal of a
double reads back: its digits were accepted because they do, or they are all
the digits there are.
-/

namespace Extrusion
namespace Numeric

/-!
## Digits and powers of ten
-/

theorem length_toDigits_mul_pow {c : Nat} (hc : 0 < c) (k : Nat) :
    (Nat.toDigits 10 (c * 10 ^ k)).length = (Nat.toDigits 10 c).length + k := by
  induction k with
  | zero => simp
  | succ k ih =>
      have hpos : 0 < c * 10 ^ k := Nat.mul_pos hc (Nat.pow_pos (by decide))
      have hsplit : c * 10 ^ (k + 1) = c * 10 ^ k * 10 := by rw [Nat.pow_succ, Nat.mul_assoc]
      rw [hsplit, Nat.toDigits_of_base_le (by decide) (by omega), List.length_append,
        Nat.mul_div_cancel _ (by decide), ih]
      rfl

theorem lt_pow_length_toDigits (c : Nat) : c < 10 ^ (Nat.toDigits 10 c).length :=
  (Nat.length_toDigits_le_iff (by decide) Nat.length_toDigits_pos).mp (Nat.le_refl _)

theorem pow_length_toDigits_le {c : Nat} (hc : 0 < c) :
    10 ^ ((Nat.toDigits 10 c).length - 1) ≤ c := by
  by_cases hone : (Nat.toDigits 10 c).length = 1
  · rw [hone]
    exact hc
  · have hpos : 0 < (Nat.toDigits 10 c).length := Nat.length_toDigits_pos
    apply Nat.le_of_not_lt
    intro hlt
    have hle := (Nat.length_toDigits_le_iff (by decide) (by omega)).mpr hlt
    omega

namespace Decimal

/-!
## Values
-/

def magnitude (d : Decimal) : ℚ :=
  d.coefficient * 10 ^ d.exponent

theorem ratio_den_pos (d : Decimal) : 0 < d.ratio.2 :=
  Nat.pow_pos (by decide)

theorem cast_ratio (d : Decimal) : (d.ratio.1 : ℚ) / d.ratio.2 = d.magnitude := by
  have h := cast_mul_pow_div d.coefficient (show 0 < 10 by decide) d.exponent
  exact_mod_cast h

theorem magnitude_bounds {d : Decimal} (hd : d.coefficient ≠ 0) :
    10 ^ (d.order - 1) ≤ d.magnitude ∧ d.magnitude < 10 ^ d.order := by
  have hpos : 0 < (Nat.toDigits 10 d.coefficient).length := Nat.length_toDigits_pos
  have hlow : (10 : ℚ) ^ ((Nat.toDigits 10 d.coefficient).length - 1) ≤ d.coefficient := by
    exact_mod_cast pow_length_toDigits_le (Nat.pos_of_ne_zero hd)
  have hhigh : (d.coefficient : ℚ) < 10 ^ (Nat.toDigits 10 d.coefficient).length := by
    exact_mod_cast lt_pow_length_toDigits d.coefficient
  unfold magnitude order
  constructor
  · have hsplit : ((Nat.toDigits 10 d.coefficient).length : Int) + d.exponent - 1 =
        (((Nat.toDigits 10 d.coefficient).length - 1 : Nat) : Int) + d.exponent := by omega
    rw [hsplit, zpow_add₀ (by norm_num), zpow_natCast]
    exact mul_le_mul_of_nonneg_right hlow (by positivity)
  · rw [zpow_add₀ (by norm_num), zpow_natCast]
    exact mul_lt_mul_of_pos_right hhigh (by positivity)

theorem toFloat_of_order {d : Decimal} (hd : d.coefficient ≠ 0) (hlow : -400 ≤ d.order)
    (hhigh : d.order ≤ 400) : d.toFloat = Double.nearest d.negative d.ratio.1 d.ratio.2 := by
  unfold toFloat
  rw [if_neg (by omega), if_neg (by omega)]

theorem toFloat_zero (negative : Bool) (e : Int) :
    toFloat ⟨negative, 0, e⟩ = Double.assemble negative 0 :=
  if_pos (Or.inl rfl)

theorem toFloat_shift (negative : Bool) (c k : Nat) (e : Int) :
    toFloat ⟨negative, c * 10 ^ k, e⟩ = toFloat ⟨negative, c, e + k⟩ := by
  by_cases hc : c = 0
  · rw [hc, Nat.zero_mul, toFloat_zero, toFloat_zero]
  · have hpos := Nat.pos_of_ne_zero hc
    have hshifted : c * 10 ^ k ≠ 0 := (Nat.mul_pos hpos (Nat.pow_pos (by decide))).ne'
    have horder : order ⟨negative, c * 10 ^ k, e⟩ = order ⟨negative, c, e + k⟩ := by
      unfold order
      rw [length_toDigits_mul_pow hpos]
      push_cast
      ring
    have hmagnitude : magnitude ⟨negative, c * 10 ^ k, e⟩ = magnitude ⟨negative, c, e + k⟩ := by
      unfold magnitude
      push_cast
      rw [zpow_add₀ (by norm_num), zpow_natCast]
      ring
    have hnearest := Double.nearest_congr negative (ratio_den_pos ⟨negative, c * 10 ^ k, e⟩)
      (ratio_den_pos ⟨negative, c, e + k⟩) (by rw [cast_ratio, cast_ratio, hmagnitude])
    unfold toFloat
    simp only [horder, hc, hshifted, hnearest]

/-!
## Exact decimals
-/

theorem lt_order_of_le {d : Decimal} (hd : d.coefficient ≠ 0) {e : Int} {k : Nat}
    (hk : -(13 * k) ≤ e) (h : (2 : ℚ) ^ e ≤ d.magnitude) : -(4 * k : Int) < d.order := by
  have hpow : (10 : ℚ) ^ (-(4 * k : Int)) ≤ 2 ^ (-(13 * k : Int)) := by
    rw [zpow_neg, zpow_neg, zpow_mul, zpow_mul, zpow_natCast, zpow_natCast]
    apply inv_anti₀ (by positivity)
    gcongr
    norm_num
  have hlt : (10 : ℚ) ^ (-(4 * k : Int)) < 10 ^ d.order := by
    calc (10 : ℚ) ^ (-(4 * k : Int)) ≤ 2 ^ (-(13 * k : Int)) := hpow
      _ ≤ 2 ^ e := zpow_le_zpow_right₀ (by norm_num) hk
      _ ≤ d.magnitude := h
      _ < 10 ^ d.order := (magnitude_bounds hd).2
  exact (zpow_lt_zpow_iff_right₀ (by norm_num)).mp hlt

theorem order_le_of_lt {d : Decimal} (hd : d.coefficient ≠ 0) {e : Int} {k : Nat}
    (hk : e ≤ 13 * k) (h : d.magnitude < (2 : ℚ) ^ e) : d.order ≤ 4 * k := by
  have hpow : (2 : ℚ) ^ (13 * k : Int) ≤ 10 ^ (4 * k : Int) := by
    rw [zpow_mul, zpow_mul, zpow_natCast, zpow_natCast]
    gcongr
    norm_num
  have hlt : (10 : ℚ) ^ (d.order - 1) < 10 ^ (4 * k : Int) := by
    calc (10 : ℚ) ^ (d.order - 1) ≤ d.magnitude := (magnitude_bounds hd).1
      _ < 2 ^ e := h
      _ ≤ 2 ^ (13 * k : Int) := zpow_le_zpow_right₀ (by norm_num) hk
      _ ≤ 10 ^ (4 * k : Int) := hpow
  have hexponent := (zpow_lt_zpow_iff_right₀ (by norm_num)).mp hlt
  omega

theorem toFloat_of_magnitude {d : Decimal} {m : Nat} {e : Int} (hm : Double.Decoded m e)
    (hpos : 0 < m) (h : d.magnitude = m * (2 : ℚ) ^ e) :
    d.toFloat = Double.assemble d.negative (Double.magnitudeBits m e) := by
  have hm_low : (1 : ℚ) ≤ m := by exact_mod_cast hpos
  have hm_high : (m : ℚ) < (2 : ℚ) ^ (53 : Int) := by exact_mod_cast hm.precision
  have hd : d.coefficient ≠ 0 := by
    intro hzero
    unfold magnitude at h
    rw [hzero, Nat.cast_zero, zero_mul] at h
    exact absurd h.symm (by positivity)
  have hlow : (2 : ℚ) ^ e ≤ d.magnitude := by
    rw [h]
    exact le_mul_of_one_le_left (by positivity) hm_low
  have hhigh : d.magnitude < (2 : ℚ) ^ (53 + e) := by
    rw [h, zpow_add₀ (by norm_num)]
    exact mul_lt_mul_of_pos_right hm_high (by positivity)
  have hleast := lt_order_of_le hd (k := 83) (by have := hm.least; omega) hlow
  have hgreatest := order_le_of_lt hd (k := 79) (by have := hm.greatest; omega) hhigh
  rw [toFloat_of_order hd (by omega) (by omega)]
  exact Double.nearest_of_decoded d.negative d.ratio_den_pos hm hpos ((cast_ratio d).trans h)

theorem magnitude_lt_two_pow {d : Decimal} (hd : d.coefficient ≠ 0) {k : Nat}
    (h : d.order ≤ 3 * k) : d.magnitude < (2 : ℚ) ^ (10 * k) := by
  calc d.magnitude < 10 ^ d.order := (magnitude_bounds hd).2
    _ ≤ 10 ^ (3 * k : Int) := zpow_le_zpow_right₀ (by norm_num) h
    _ = 1000 ^ k := by
        rw [zpow_mul, zpow_natCast]
        norm_num
    _ ≤ 1024 ^ k := by
        gcongr
        norm_num
    _ = 2 ^ (10 * k) := by
        rw [pow_mul]
        norm_num

theorem isFinite_toFloat {d : Decimal} {k : Nat} (hk : k ≤ 102) (h : d.order ≤ 3 * k) :
    Double.IsFinite d.toFloat := by
  have hzero : Double.IsFinite (Double.assemble d.negative 0) :=
    Double.isFinite_assemble d.negative (by decide)
  by_cases hd : d.coefficient = 0
  · unfold toFloat
    rw [if_pos (Or.inl hd)]
    exact hzero
  · by_cases hlow : d.order < -400
    · unfold toFloat
      rw [if_pos (Or.inr hlow)]
      exact hzero
    · rw [toFloat_of_order hd (by omega) (by omega)]
      apply Double.isFinite_nearest d.negative d.ratio_den_pos (k := 10 * k) (by omega)
      rw [cast_ratio]
      exact magnitude_lt_two_pow hd h

end Decimal

/-!
## Shortest decimals
-/

namespace Shortest

theorem toFloat_stripZeros (negative : Bool) (c : Nat) (e : Int) :
    Decimal.toFloat ⟨negative, (stripZeros c e).1, (stripZeros c e).2⟩ =
      Decimal.toFloat ⟨negative, c, e⟩ := by
  fun_induction stripZeros c e with
  | case1 c e h ih =>
      have hshift := Decimal.toFloat_shift negative (c / 10) 1 e
      have hc : c / 10 * 10 ^ 1 = c := by omega
      rw [hc] at hshift
      rw [ih, hshift]
      rfl
  | case2 c e h => rfl

theorem magnitude_expand (negative : Bool) (m : Nat) (e : Int) :
    (expand negative m e).magnitude = m * (2 : ℚ) ^ e := by
  unfold expand Decimal.magnitude
  by_cases he : 0 ≤ e
  · lift e to Nat using he
    simp [zpow_natCast]
  · obtain ⟨k, rfl⟩ : ∃ k : Nat, e = -k := ⟨(-e).toNat, by omega⟩
    have hten : (10 : ℚ) ^ k = 5 ^ k * 2 ^ k := by
      rw [← mul_pow]
      norm_num
    rw [if_neg he]
    simp only [neg_neg, Int.toNat_natCast, Nat.pow_eq, zpow_neg, zpow_natCast, hten]
    push_cast
    field_simp

theorem negative_expand (negative : Bool) (m : Nat) (e : Int) :
    (expand negative m e).negative = negative := by
  unfold expand
  split <;> rfl

theorem accept_of_neighbour {tie : Tie} {accept : Decimal → Bool} {negative : Bool}
    {num den : Nat} {e : Int} {d : Decimal}
    (h : neighbour? tie accept negative num den e = some d) :
    accept d = true ∧ d.negative = negative := by
  unfold neighbour? at h
  simp only at h
  split at h
  · cases h
    exact ⟨‹_›, rfl⟩
  · split at h
    · cases h
      exact ⟨‹_›, rfl⟩
    · split at h
      · cases h
        exact ⟨‹_›, rfl⟩
      · cases h

theorem ofFinite_zero (tie : Tie) (negative : Bool) (e : Int) :
    ofFinite tie negative 0 e = ⟨negative, 0, 0⟩ :=
  if_pos rfl

def firstHit? (tie : Tie) (negative : Bool) (num den bits : Nat) : Option Decimal :=
  (List.range 17).findSome? fun k =>
    neighbour? tie (fun d => d.toFloat.toBits == (Double.assemble negative bits).toBits) negative
      num den (decimalOrder num den - (k + 1 : Nat))

theorem reads_of_firstHit {tie : Tie} {negative : Bool} {num den bits : Nat} {d : Decimal}
    (h : firstHit? tie negative num den bits = some d) :
    d.negative = negative ∧ d.toFloat = Double.assemble negative bits := by
  rcases List.exists_of_findSome?_eq_some h with ⟨k, _, hk⟩
  rcases accept_of_neighbour hk with ⟨haccept, hnegative⟩
  exact ⟨hnegative, Double.eq_of_toBits (beq_iff_eq.mp haccept)⟩

-- The ratio and the bits are named: seen through, they are powers too large to compute.
theorem ofFinite_of_ne_zero (tie : Tie) (negative : Bool) {m : Nat} {e : Int} (hm : m ≠ 0)
    {num den bits : Nat} (hratio : Double.ratio m e = (num, den))
    (hbits : Double.magnitudeBits m e = bits) {best : Decimal}
    (hbest : (firstHit? tie negative num den bits).getD (expand negative m e) = best) :
    ofFinite tie negative m e =
      ⟨negative, (stripZeros best.coefficient best.exponent).1,
        (stripZeros best.coefficient best.exponent).2⟩ := by
  unfold ofFinite
  rw [if_neg hm, hratio, hbits, ← hbest]
  rfl

/-- The shortest decimal of a double reads back. -/
theorem toFloat_ofFinite (tie : Tie) (negative : Bool) {m : Nat} {e : Int}
    (hm : Double.Decoded m e) :
    (ofFinite tie negative m e).negative = negative ∧
      (ofFinite tie negative m e).toFloat =
        Double.assemble negative (Double.magnitudeBits m e) := by
  by_cases hzero : m = 0
  · subst m
    have hbits : Double.magnitudeBits 0 e = 0 := by
      rw [hm.leading.resolve_right (by decide), Double.magnitudeBits_eq]
      rfl
    rw [ofFinite_zero, hbits]
    exact ⟨rfl, Decimal.toFloat_zero negative 0⟩
  · rcases hratio : Double.ratio m e with ⟨num, den⟩
    generalize hbits : Double.magnitudeBits m e = bits
    generalize hbest : (firstHit? tie negative num den bits).getD (expand negative m e) = best
    have hreads : best.negative = negative ∧ best.toFloat = Double.assemble negative bits := by
      cases hhit : firstHit? tie negative num den bits with
      | none =>
          have hexact := Decimal.toFloat_of_magnitude hm (Nat.pos_of_ne_zero hzero)
            (magnitude_expand negative m e)
          rw [hhit, Option.getD_none] at hbest
          rw [negative_expand, hbest, hbits] at hexact
          exact ⟨hbest ▸ negative_expand negative m e, hexact⟩
      | some d =>
          rw [hhit, Option.getD_some] at hbest
          exact hbest ▸ reads_of_firstHit hhit
    rw [ofFinite_of_ne_zero tie negative hzero hratio hbits hbest]
    refine ⟨rfl, ?_⟩
    rcases best with ⟨negative', c, e'⟩
    obtain ⟨rfl, hreads⟩ := hreads
    rw [toFloat_stripZeros]
    exact hreads

end Shortest

end Numeric
end Extrusion
