import Mathlib
import Extrusion.Proofs.Numeric.Monotone

/-!
# Values of doubles

A finite double denotes a rational number.  Rounding a rational number gives a
finite double unless it is too large, keeps the order, and changes the number by
a share of its own or by the least double there is.
-/

namespace Extrusion
namespace Numeric
namespace Double

/-!
## Values
-/

def withSign (negative : Bool) (q : ℚ) : ℚ := cond negative (-q) q

@[simp] theorem abs_withSign (negative : Bool) (q : ℚ) : |withSign negative q| = |q| := by
  cases negative
  · rfl
  · exact abs_neg q

theorem withSign_sub (negative : Bool) (p q : ℚ) :
    withSign negative p - withSign negative q = withSign negative (p - q) := by
  cases negative
  · rfl
  · show -p - -q = -(p - q)
    ring

def value (x : Float) : ℚ :=
  match ofFloat x with
  | .finite negative significand exponent => withSign negative (significand * (2 : ℚ) ^ exponent)
  | _ => 0

theorem value_of_ofFloat {x : Float} {negative : Bool} {m : Nat} {e : Int}
    (h : ofFloat x = .finite negative m e) : value x = withSign negative (m * (2 : ℚ) ^ e) := by
  rw [value, h]

theorem exists_value {x : Float} (hx : IsFinite x) :
    ∃ negative m e, ofFloat x = .finite negative m e ∧ Decoded m e ∧
      value x = withSign negative (m * (2 : ℚ) ^ e) := by
  rcases exists_ofFloat hx with ⟨negative, m, e, hofFloat, hm, _⟩
  exact ⟨negative, m, e, hofFloat, hm, value_of_ofFloat hofFloat⟩

def largest : ℚ := (2 ^ 53 - 1) * (2 : ℚ) ^ (971 : Int)

theorem Decoded.value_le {m : Nat} {e : Int} (h : Decoded m e) :
    (m : ℚ) * (2 : ℚ) ^ e ≤ largest := by
  have hm : (m : ℚ) ≤ 2 ^ 53 - 1 := by
    have hlt : (m : ℚ) + 1 ≤ 2 ^ 53 := by exact_mod_cast h.precision
    linarith
  have he : (2 : ℚ) ^ e ≤ (2 : ℚ) ^ (971 : Int) := zpow_le_zpow_right₀ one_le_two h.greatest
  exact mul_le_mul hm he (by positivity) (by norm_num)

theorem abs_value_le {x : Float} (hx : IsFinite x) : |value x| ≤ largest := by
  rcases exists_value hx with ⟨negative, m, e, _, hm, hvalue⟩
  rw [hvalue, abs_withSign, abs_of_nonneg (by positivity)]
  exact hm.value_le

/-!
## Rounding
-/

section

variable {num den : Nat}

theorem nearestValue_of_decoded {m : Nat} {e : Int} (hden : 0 < den) (hm : Decoded m e)
    (h : (num : ℚ) / den = m * (2 : ℚ) ^ e) :
    BinaryFormat.double.nearestValue num den = m * (2 : ℚ) ^ e := by
  rcases Nat.eq_zero_or_pos m with rfl | hpos
  · have hden_ne : (den : ℚ) ≠ 0 := by exact_mod_cast hden.ne'
    rw [Nat.cast_zero, zero_mul, div_eq_zero_iff] at h
    have hnum : num = 0 := by exact_mod_cast h.resolve_right hden_ne
    rw [hnum, BinaryFormat.nearestValue_zero, Nat.cast_zero, zero_mul]
  · rw [BinaryFormat.nearestValue, BinaryFormat.round_of_holds hden (hm.holds hpos) h]

theorem assemble_of_large (negative : Bool) {m : Nat} {e : Int}
    (hlarge : 972 ≤ e ∧ 2 ^ 52 ≤ m ∨ e = 971 ∧ 2 ^ 53 ≤ m) :
    assemble negative (magnitudeBits m e) = infinity negative ∧
      (2 : ℚ) ^ (1024 : Int) ≤ m * (2 : ℚ) ^ e := by
  constructor
  · have hbits : magnitudeBits m e = infinityBits := by
      rw [magnitudeBits_eq, infinityBits_eq]
      omega
    rw [hbits]
    rfl
  · rcases hlarge with ⟨he, hm⟩ | ⟨rfl, hm⟩
    · have hm' : (2 : ℚ) ^ (52 : Int) ≤ m := by exact_mod_cast hm
      calc (2 : ℚ) ^ (1024 : Int) = (2 : ℚ) ^ (52 : Int) * (2 : ℚ) ^ (972 : Int) := by
            rw [← zpow_add₀ two_ne_zero]
            rfl
        _ ≤ m * (2 : ℚ) ^ e :=
            mul_le_mul hm' (zpow_le_zpow_right₀ one_le_two he) (by positivity) (by positivity)
    · have hm' : (2 : ℚ) ^ (53 : Int) ≤ m := by exact_mod_cast hm
      calc (2 : ℚ) ^ (1024 : Int) = (2 : ℚ) ^ (53 : Int) * (2 : ℚ) ^ (971 : Int) := by
            rw [← zpow_add₀ two_ne_zero]
            rfl
        _ ≤ m * (2 : ℚ) ^ (971 : Int) :=
            mul_le_mul_of_nonneg_right hm' (by positivity)

theorem nearest_cases (negative : Bool) (num : Nat) (hden : 0 < den) :
    IsFinite (nearest negative num den) ∧
        value (nearest negative num den) =
          withSign negative (BinaryFormat.double.nearestValue num den) ∨
      nearest negative num den = infinity negative ∧
        (2 : ℚ) ^ (1024 : Int) ≤ BinaryFormat.double.nearestValue num den := by
  rcases Nat.eq_zero_or_pos num with rfl | hnum
  · left
    have hround : BinaryFormat.double.round 0 den = (0, -1074) := rfl
    have hzero : Decoded 0 (-1074) := ⟨by norm_num, by norm_num, by norm_num, Or.inl rfl⟩
    have hofFloat := ofFloat_assemble negative hzero
    rw [nearest_eq, hround, BinaryFormat.nearestValue_zero]
    refine ⟨isFinite_of_ofFloat hofFloat, ?_⟩
    rw [value_of_ofFloat hofFloat, Nat.cast_zero, zero_mul]
  · have hbounds := round_bounds hnum hden
    rw [nearest_eq, BinaryFormat.nearestValue]
    generalize (BinaryFormat.double.round num den).1 = m at hbounds ⊢
    generalize (BinaryFormat.double.round num den).2 = e at hbounds ⊢
    rcases hbounds with ⟨hm, hlow, hleading⟩
    by_cases hlarge : 972 ≤ e ∧ 2 ^ 52 ≤ m ∨ e = 971 ∧ 2 ^ 53 ≤ m
    · exact Or.inr (assemble_of_large negative hlarge)
    · left
      by_cases htop : e = 971
      · have hofFloat := ofFloat_assemble negative
          (⟨by omega, hlow, by omega, hleading⟩ : Decoded m e)
        exact ⟨isFinite_of_ofFloat hofFloat, value_of_ofFloat hofFloat⟩
      · rcases exists_ofFloat_of_rounded negative hm hlow (by omega) hleading with
          ⟨n, f, hofFloat, _, hvalue⟩
        refine ⟨isFinite_of_ofFloat hofFloat, ?_⟩
        rw [value_of_ofFloat hofFloat, hvalue]

theorem half_least : (2 : ℚ) ^ (-1075 : Int) = (2 : ℚ) ^ (-1074 : Int) / 2 := by
  rw [show (-1075 : Int) = -1074 - 1 from rfl, zpow_sub_one₀ two_ne_zero, div_eq_mul_inv]

theorem abs_nearestValue_sub_le (num : Nat) (hden : 0 < den) :
    |BinaryFormat.double.nearestValue num den - num / den| ≤
      (num : ℚ) / den / 2 ^ 53 + (2 : ℚ) ^ (-1075 : Int) := by
  rcases Nat.eq_zero_or_pos num with rfl | hnum
  · rw [BinaryFormat.nearestValue_zero, Nat.cast_zero, zero_div, sub_self, abs_zero]
    positivity
  · have hquotient : (0 : ℚ) < (num : ℚ) / den := by positivity
    have herror := abs_significand_sub_le hden num (BinaryFormat.double.exponentFor num den)
    have hexponent : BinaryFormat.double.exponentFor num den =
        max (-1074) (Int.log 2 ((num : ℚ) / den) - 53 + 1) :=
      BinaryFormat.exponentFor_eq hnum hden
    rw [BinaryFormat.nearestValue_of_pos hnum]
    refine herror.trans ?_
    rcases max_choice (-1074) (Int.log 2 ((num : ℚ) / den) - 53 + 1) with hmax | hmax
    · rw [hexponent, hmax]
      rw [← half_least]
      exact le_add_of_nonneg_left (by positivity)
    · have hself : (2 : ℚ) ^ Int.log 2 ((num : ℚ) / den) ≤ num / den := by
        exact_mod_cast Int.zpow_log_le_self one_lt_two hquotient
      have hhalf : (2 : ℚ) ^ (Int.log 2 ((num : ℚ) / den) - 53 + 1) / 2 =
          (2 : ℚ) ^ Int.log 2 ((num : ℚ) / den) / 2 ^ 53 := by
        rw [zpow_add_one₀ two_ne_zero, mul_div_cancel_right₀ _ two_ne_zero,
          zpow_sub₀ two_ne_zero, show (2 : ℚ) ^ (53 : Int) = 2 ^ 53 from zpow_natCast 2 53]
      rw [hexponent, hmax, hhalf]
      calc (2 : ℚ) ^ Int.log 2 ((num : ℚ) / den) / 2 ^ 53 ≤ (num : ℚ) / den / 2 ^ 53 := by gcongr
        _ ≤ _ := le_add_of_nonneg_right (by positivity)

theorem largest_lt : largest < (2 : ℚ) ^ (1024 : Int) := by
  calc largest < 2 ^ 53 * (2 : ℚ) ^ (971 : Int) := by
        apply mul_lt_mul_of_pos_right (by norm_num) (by positivity)
    _ = (2 : ℚ) ^ (53 : Int) * (2 : ℚ) ^ (971 : Int) := by
        rw [show (2 : ℚ) ^ (53 : Int) = 2 ^ 53 from zpow_natCast 2 53]
    _ = (2 : ℚ) ^ (1024 : Int) := by
        rw [← zpow_add₀ two_ne_zero]
        rfl

theorem not_isFinite_infinity (negative : Bool) : ¬ IsFinite (infinity negative) := by
  have hbits := toNat_toBits_assemble negative (Nat.le_refl infinityBits)
  unfold IsFinite infinity
  rw [hbits, infinityBits_eq]
  cases negative <;> decide

theorem isFinite_nearest_iff (negative : Bool) (num : Nat) (hden : 0 < den) :
    IsFinite (nearest negative num den) ↔ BinaryFormat.double.nearestValue num den ≤ largest := by
  rcases nearest_cases negative num hden with ⟨hfinite, hvalue⟩ | ⟨hinfinite, hlarge⟩
  · have hle := abs_value_le hfinite
    rw [hvalue, abs_withSign, abs_of_nonneg (BinaryFormat.nearestValue_nonneg _ _ _)] at hle
    exact ⟨fun _ => hle, fun _ => hfinite⟩
  · rw [hinfinite]
    constructor
    · intro hfinite
      exact absurd hfinite (not_isFinite_infinity negative)
    · intro hle
      exact absurd (hlarge.trans hle) (not_le.mpr largest_lt)

theorem value_nearest {negative : Bool} (hden : 0 < den)
    (h : IsFinite (nearest negative num den)) :
    value (nearest negative num den) =
      withSign negative (BinaryFormat.double.nearestValue num den) := by
  rcases nearest_cases negative num hden with ⟨_, hvalue⟩ | ⟨hinfinite, _⟩
  · exact hvalue
  · rw [hinfinite] at h
    exact absurd h (not_isFinite_infinity negative)

end

/-- A double is one that a number rounds to. -/
def Rounds (q : ℚ) (x : Float) : Prop :=
  ∃ (negative : Bool) (num den : Nat), 0 < den ∧ q = withSign negative ((num : ℚ) / den) ∧
    x = nearest negative num den

theorem rounds_nearest (negative : Bool) (num : Nat) {den : Nat} (hden : 0 < den) :
    Rounds (withSign negative ((num : ℚ) / den)) (nearest negative num den) :=
  ⟨negative, num, den, hden, rfl, rfl⟩

theorem rounds_value {x : Float} (hx : IsFinite x) : Rounds (value x) x := by
  rcases exists_ofFloat hx with ⟨negative, m, e, hofFloat, hm, hassemble⟩
  have hden : 0 < Nat.pow 2 (-e).toNat := Nat.pow_pos two_pos
  have hvalue := cast_mul_pow_div m two_pos e
  refine ⟨negative, m * Nat.pow 2 e.toNat, Nat.pow 2 (-e).toNat, hden, ?_, ?_⟩
  · rw [value_of_ofFloat hofFloat, hvalue, Nat.cast_ofNat]
  · rw [nearest_of_value negative hden hm hvalue, hassemble]

namespace Rounds

variable {p q : ℚ} {x y : Float}

theorem abs_value_le (h : Rounds q x) (h' : Rounds p y) (hle : |q| ≤ |p|) (hy : IsFinite y) :
    IsFinite x ∧ |value x| ≤ |value y| := by
  rcases h with ⟨negative, num, den, hden, rfl, rfl⟩
  rcases h' with ⟨negative', num', den', hden', rfl, rfl⟩
  rw [abs_withSign, abs_withSign, abs_of_nonneg (by positivity), abs_of_nonneg (by positivity)]
    at hle
  have hmono := BinaryFormat.nearestValue_mono (by decide : 0 < BinaryFormat.double.precision)
    hden hden' hle
  have hx := (isFinite_nearest_iff negative num hden).mpr
    (hmono.trans ((isFinite_nearest_iff negative' num' hden').mp hy))
  refine ⟨hx, ?_⟩
  rw [value_nearest hden hx, value_nearest hden' hy, abs_withSign, abs_withSign,
    abs_of_nonneg (BinaryFormat.nearestValue_nonneg _ _ _),
    abs_of_nonneg (BinaryFormat.nearestValue_nonneg _ _ _)]
  exact hmono

theorem value_eq (h : Rounds (value y) x) (hy : IsFinite y) : IsFinite x ∧ value x = value y := by
  rcases h with ⟨negative, num, den, hden, hq, rfl⟩
  rcases exists_value hy with ⟨negative', m, e, _, hm, hvalue⟩
  have habs : (num : ℚ) / den = m * (2 : ℚ) ^ e := by
    have habs := congrArg abs (hvalue.symm.trans hq)
    rw [abs_withSign, abs_withSign, abs_of_nonneg (by positivity), abs_of_nonneg (by positivity)]
      at habs
    exact habs.symm
  have hnearest := nearestValue_of_decoded hden hm habs
  have hx := (isFinite_nearest_iff negative num hden).mpr (by
    rw [hnearest]
    exact hm.value_le)
  refine ⟨hx, ?_⟩
  rw [value_nearest hden hx, hnearest, hq, habs]

/-- Rounding changes a number by a share of its own, or by the least double. -/
theorem abs_value_sub_le (h : Rounds q x) (hx : IsFinite x) :
    |value x - q| ≤ |q| / 2 ^ 53 + (2 : ℚ) ^ (-1075 : Int) := by
  rcases h with ⟨negative, num, den, hden, rfl, rfl⟩
  rw [value_nearest hden hx, withSign_sub, abs_withSign, abs_withSign,
    abs_of_nonneg (by positivity : (0 : ℚ) ≤ (num : ℚ) / den)]
  exact abs_nearestValue_sub_le num hden

end Rounds

end Double
end Numeric
end Extrusion
