import Mathlib
import Extrusion.Proofs.Layer.Padding
import Extrusion.Proofs.Numeric.Hypotenuse
import Extrusion.Settings

/-!
# Finite points

Padding keeps the points of a path finite as long as the padding is.  The direction
that an end is moved in has components of at most two, so half of any finite
nozzle diameter moves it by no more than the largest double.  An infinite nozzle
diameter is accepted as well, and no end stays finite with it: where an end
coincides with its neighbour, infinity times zero is not a number.
-/

namespace Extrusion

open Numeric Numeric.Double

structure Vec2.IsFinite (point : Vec2 Float) : Prop where
  x : point.x.isFinite = true
  y : point.y.isFinite = true

/-- A finite point with coordinates of magnitude at most a billion. -/
structure Vec2.IsPlaced (point : Vec2 Float) : Prop extends point.IsFinite where
  x_le : point.x.abs ≤ 1e9
  y_le : point.y.abs ≤ 1e9

/-- The points of a draft are within a billion of the origin, along each axis. -/
def Draft.IsPlaced (draft : Draft Float) : Prop :=
  ∀ path ∈ draft.paths, ∀ point ∈ path.points, point.IsPlaced

/-- What accepted settings do to finite points: a finite nozzle diameter keeps all of them
finite, and the only other one that is accepted keeps no end of a path so. -/
structure FinitenessRule (settings : BuildSettings Float) : Prop where
  kept : settings.nozzleDiameter.isFinite = true → ∀ draft : Draft Float, draft.IsPlaced →
    ∀ path ∈ (draft.finish (settings.nozzleDiameter / 2.0)).paths,
      ∀ point ∈ path.points, point.IsFinite
  infinite : settings.nozzleDiameter.isFinite = false →
    settings.nozzleDiameter = Double.infinity false
  lost : settings.nozzleDiameter.isFinite = false → ∀ draft : Draft Float,
    ∀ path ∈ (draft.finish (settings.nozzleDiameter / 2.0)).paths,
      ¬ path.first.IsFinite ∧ ¬ path.last.IsFinite

/-!
# One coordinate
-/

section

variable {x length padding tip : Float}

theorem ofFloat_billion : ofFloat 1e9 = .finite false 8388608000000000 (-23) := by
  decide +kernel

theorem value_billion : value 1e9 = 10 ^ 9 := by
  rw [value_of_ofFloat ofFloat_billion]
  norm_num [withSign]

theorem abs_value_le_billion (hx : Double.IsFinite x) (h : x.abs ≤ 1e9) : |value x| ≤ 10 ^ 9 := by
  rw [le_iff_value (isFinite_abs hx) (isFinite_of_ofFloat ofFloat_billion), value_abs hx,
    value_billion] at h
  exact h

theorem billion_le : (10 : ℚ) ^ 9 ≤ (2 : ℚ) ^ (969 : Int) := by
  calc (10 : ℚ) ^ 9 ≤ (2 : ℚ) ^ (30 : Int) := by norm_num
    _ ≤ (2 : ℚ) ^ (969 : Int) := zpow_le_zpow_right₀ one_le_two (by norm_num)

theorem isFinite_component (hx : Double.IsFinite x) (hlong : Hypotenuse.LongEnough |value x| length)
    (hne : ¬ (length == 0) = true) : Double.IsFinite (x / length) ∧ |value (x / length)| ≤ 2 := by
  rcases hlong with rfl | ⟨hfinite, hlong⟩
  · have hrounds := rounds_div_infinity hx
    rw [← value_zero] at hrounds
    have hvalue := hrounds.value_eq isFinite_zero
    refine ⟨hvalue.1, ?_⟩
    rw [hvalue.2, value_zero, abs_zero]
    exact zero_le_two
  · rw [beq_iff_value hfinite isFinite_zero, value_zero] at hne
    have hpos : 0 < value length :=
      lt_of_le_of_ne (by linarith [abs_nonneg (value x)]) (Ne.symm hne)
    have hquotient := (rounds_div hx hfinite hne).abs_value_le_zpow (k := 1) (by norm_num)
      (by norm_num) (by
        rw [zpow_one, abs_div, abs_of_pos hpos, div_le_iff₀ hpos]
        exact hlong)
    rwa [zpow_one] at hquotient

theorem abs_value_half_le (hx : Double.IsFinite x) :
    Double.IsFinite (x / 2.0) ∧ |value (x / 2.0)| ≤ largest / 2 := by
  have htwo : ofFloat 2.0 = .finite false (2 ^ 52) (-51) := by decide +kernel
  have hvalue : value 2.0 = 2 := by
    rw [value_of_ofFloat htwo]
    norm_num [withSign]
  have hdecoded : Decoded (2 ^ 53 - 1) 970 :=
    ⟨by norm_num, by norm_num, by norm_num, Or.inr (by norm_num)⟩
  have hofFloat := ofFloat_assemble false hdecoded
  have hfinite := isFinite_of_ofFloat hofFloat
  have hhalf : value (assemble false (magnitudeBits (2 ^ 53 - 1) 970)) = largest / 2 := by
    have hcast : ((2 ^ 53 - 1 : Nat) : ℚ) = 2 ^ 53 - 1 := by norm_num
    rw [value_of_ofFloat hofFloat, hcast, largest, show (971 : Int) = 970 + 1 from rfl,
      zpow_add_one₀ two_ne_zero, ← mul_assoc, mul_div_cancel_right₀ _ two_ne_zero]
    rfl
  have hrounds := rounds_div hx (isFinite_of_ofFloat htwo) (by rw [hvalue]; exact two_ne_zero)
  rw [hvalue] at hrounds
  have hpos : 0 ≤ largest / 2 := by
    unfold largest
    positivity
  have hle := hrounds.abs_value_le (rounds_value hfinite) (by
    rw [hhalf, abs_div, abs_two, abs_of_nonneg hpos]
    gcongr
    exact abs_value_le hx) hfinite
  rwa [hhalf, abs_of_nonneg hpos] at hle

theorem isFinite_difference (htip : Double.IsFinite tip) (htip_le : |value tip| ≤ 10 ^ 9)
    (hx : Double.IsFinite x) : Double.IsFinite (tip - x) := by
  apply (rounds_sub htip hx).isFinite_of_abs_le
  calc |value tip - value x| ≤ |value tip| + |value x| := abs_sub _ _
    _ ≤ (2 : ℚ) ^ (969 : Int) + largest :=
        add_le_add (htip_le.trans billion_le) (abs_value_le hx)
    _ = largest + (2 : ℚ) ^ (969 : Int) := add_comm _ _

theorem isFinite_moved (htip : |value tip| ≤ 10 ^ 9) (htip_finite : Double.IsFinite tip)
    (hx : Double.IsFinite x) (hx_le : |value x| ≤ 2) (hpadding : Double.IsFinite padding)
    (hpadding_le : |value padding| ≤ largest / 2) : Double.IsFinite (tip + x * padding) := by
  have hproduct := rounds_mul hx hpadding
  have hproduct_le : |value x * value padding| ≤ largest := by
    calc |value x * value padding| = |value x| * |value padding| := abs_mul _ _
      _ ≤ 2 * (largest / 2) := mul_le_mul hx_le hpadding_le (abs_nonneg _) zero_le_two
      _ = largest := mul_div_cancel₀ largest two_ne_zero
  have hfinite := hproduct.isFinite_of_abs_le
    (hproduct_le.trans (le_add_of_nonneg_right (by positivity)))
  apply (rounds_add htip_finite hfinite).isFinite_of_abs_le
  calc |value tip + value (x * padding)| ≤ |value tip| + |value (x * padding)| := abs_add_le _ _
    _ ≤ (2 : ℚ) ^ (969 : Int) + largest := add_le_add (htip.trans billion_le) (abs_value_le hfinite)
    _ = largest + (2 : ℚ) ^ (969 : Int) := add_comm _ _

end

/-!
# One end
-/

namespace Vec2

theorem isFinite_iff {point : Vec2 Float} :
    point.IsFinite ↔ Double.IsFinite point.x ∧ Double.IsFinite point.y := by
  rw [← Double.isFinite_iff, ← Double.isFinite_iff]
  exact ⟨fun h => ⟨h.x, h.y⟩, fun h => ⟨h.1, h.2⟩⟩

structure IsShort (v : Vec2 Float) : Prop where
  x : Double.IsFinite v.x ∧ |value v.x| ≤ 2
  y : Double.IsFinite v.y ∧ |value v.y| ≤ 2

theorem isShort_normalized {v : Vec2 Float} (h : v.IsFinite) : v.normalized.IsShort := by
  have hfinite := isFinite_iff.mp h
  have hlong : Hypotenuse.LongEnough (max |value v.x| |value v.y|) v.length :=
    hypot_longEnough hfinite.1 hfinite.2
  unfold normalized
  simp only
  split
  case isTrue =>
    have hzero : Double.IsFinite 0 ∧ |value 0| ≤ 2 := ⟨isFinite_zero, by
      rw [value_zero, abs_zero]
      exact zero_le_two⟩
    exact ⟨hzero, hzero⟩
  case isFalse hne =>
    exact ⟨isFinite_component hfinite.1 (hlong.mono (le_max_left _ _)) hne,
      isFinite_component hfinite.2 (hlong.mono (le_max_right _ _)) hne⟩

end Vec2

namespace Path

section

variable {tip neighbour : Vec2 Float} {padding : Float}

theorem isFinite_outward (htip : tip.IsPlaced) (hneighbour : neighbour.IsFinite)
    (hpadding : Double.IsFinite padding) (hpadding_le : |value padding| ≤ largest / 2) :
    (outward tip neighbour padding).IsFinite := by
  have htip_finite := Vec2.isFinite_iff.mp htip.toIsFinite
  have hneighbour_finite := Vec2.isFinite_iff.mp hneighbour
  have hx := abs_value_le_billion htip_finite.1 htip.x_le
  have hy := abs_value_le_billion htip_finite.2 htip.y_le
  have hdirection := Vec2.isShort_normalized (Vec2.isFinite_iff.mpr
    ⟨isFinite_difference htip_finite.1 hx hneighbour_finite.1,
      isFinite_difference htip_finite.2 hy hneighbour_finite.2⟩ : (tip - neighbour).IsFinite)
  exact Vec2.isFinite_iff.mpr
    ⟨isFinite_moved hx htip_finite.1 hdirection.x.1 hdirection.x.2 hpadding hpadding_le,
      isFinite_moved hy htip_finite.2 hdirection.y.1 hdirection.y.2 hpadding hpadding_le⟩

theorem not_isFinite_outward (hpadding : ¬ Double.IsFinite padding) :
    ¬ (outward tip neighbour padding).IsFinite := by
  intro h
  exact not_isFinite_add (not_isFinite_mul hpadding) (Vec2.isFinite_iff.mp h).1

end

/-!
# Paths
-/

theorem isFinite_padded {path : Path Float} {padding : Float}
    (h : ∀ point ∈ path.points, point.IsPlaced) (hpadding : Double.IsFinite padding)
    (hpadding_le : |value padding| ≤ largest / 2) :
    ∀ point ∈ (path.padded padding).points, point.IsFinite := by
  have htwo := path.two_le_size
  have hpadded := path.paddedOnce_padded padding
  have hget (i : Nat) (hi : i < path.points.size) : path.points[i].IsPlaced :=
    h _ (Array.getElem_mem hi)
  have hfirst : (path.padded padding).first.IsFinite := by
    rw [hpadded.first]
    exact isFinite_outward (hget _ _) (hget _ _).toIsFinite hpadding hpadding_le
  have hlast : (path.padded padding).last.IsFinite := by
    rw [hpadded.last]
    apply isFinite_outward (hget _ _) _ hpadding hpadding_le
    split
    · exact hfirst
    · exact (hget _ _).toIsFinite
  intro point hpoint
  obtain ⟨i, hi, rfl⟩ := Array.getElem_of_mem hpoint
  have hsize := path.size_padded padding
  rcases Nat.eq_zero_or_pos i with rfl | hpos
  · exact hfirst
  · rcases Nat.lt_or_ge (i + 1) path.points.size with hinside | hend
    · have hsame := hpadded.inside i hpos hinside
      rw [Array.getElem?_eq_getElem hi, Array.getElem?_eq_getElem (by omega),
        Option.some.injEq] at hsame
      rw [hsame]
      exact (hget _ _).toIsFinite
    · have hlast_index : i = (path.padded padding).points.size - 1 := by omega
      subst hlast_index
      exact hlast

end Path

/-!
# Settings
-/

theorem eq_infinity_of_pos {x : Float} (hpos : 0 < x) (hx : ¬ Double.IsFinite x) :
    x = Double.infinity false := by
  rw [lt_iff] at hpos
  rcases hpos with ⟨-, hnumber, hpos⟩
  have hzero : signedMagnitude (0 : Float).toBits.toNat = 0 := by decide +kernel
  rw [hzero] at hpos
  unfold Double.IsFinite at hx
  unfold IsNumber at hnumber
  have hbits := toNat_toBits_assemble false (Nat.le_refl infinityBits)
  unfold signedMagnitude at hpos
  apply eq_of_toBits
  apply UInt64.toNat_inj.mp
  rw [Double.infinity, hbits]
  rw [infinityBits_eq] at hx hnumber ⊢
  rw [cond_false]
  split at hpos <;> omega

theorem BuildSettings.nozzleDiameter_pos {settings : BuildSettings Float}
    (h : settings.validate = .ok ()) : 0 < settings.nozzleDiameter := by
  by_contra hpos
  have hrefused : checkPositive .nozzleDiameter settings.nozzleDiameter =
      .error (.nonPositive .nozzleDiameter settings.nozzleDiameter) := if_neg hpos
  unfold validate at h
  rw [hrefused] at h
  cases h

theorem finitenessRule {settings : BuildSettings Float} (h : settings.validate = .ok ()) :
    FinitenessRule settings where
  kept := by
    intro hfinite draft hplaced path hpath
    have hhalf := abs_value_half_le (Double.isFinite_iff.mp hfinite)
    obtain ⟨before, hbefore, rfl⟩ := Array.mem_map.mp hpath
    exact Path.isFinite_padded (hplaced before hbefore) hhalf.1 hhalf.2
  infinite := by
    intro hinfinite
    apply eq_infinity_of_pos (BuildSettings.nozzleDiameter_pos h)
    rw [← Double.isFinite_iff, hinfinite]
    exact Bool.false_ne_true
  lost := by
    intro hinfinite draft path hpath
    obtain ⟨before, _, rfl⟩ := Array.mem_map.mp hpath
    have hpadding : ¬ Double.IsFinite (settings.nozzleDiameter / 2.0) := by
      apply not_isFinite_div
      rw [← Double.isFinite_iff, hinfinite]
      exact Bool.false_ne_true
    rw [Path.first_padded, Path.last_padded]
    exact ⟨Path.not_isFinite_outward hpadding, Path.not_isFinite_outward hpadding⟩

theorem finitenessRule_default :
    (BuildSettings.default : BuildSettings Float).validate = .ok () ∧
      (BuildSettings.default : BuildSettings Float).nozzleDiameter.isFinite = true ∧
        FinitenessRule .default := by
  have hvalid : (BuildSettings.default : BuildSettings Float).validate = .ok () := by
    decide +kernel
  have hfinite : (BuildSettings.default : BuildSettings Float).nozzleDiameter.isFinite = true := by
    decide +kernel
  exact ⟨hvalid, hfinite, finitenessRule hvalid⟩

def BuildSettings.unbounded : BuildSettings Float where
  nozzleDiameter := Double.infinity false
  arcMaxError := 0.05
  skipUnknown := true

def Path.resting : Path Float :=
  .new ⟨0, 0⟩ ⟨0, 0⟩

/-- An infinite nozzle diameter passes, and moves an end to no point at all even where it
coincides with its neighbour. -/
theorem infinite_nozzle_loses_points :
    ∃ (settings : BuildSettings Float) (draft : Draft Float),
      settings.validate = .ok () ∧ draft.IsPlaced ∧
        ∃ path ∈ (draft.finish (settings.nozzleDiameter / 2.0)).paths,
          ∃ point ∈ path.points, ¬ point.IsFinite := by
  have hvalid : BuildSettings.unbounded.validate = .ok () := by
    decide +kernel
  have horigin : (⟨0, 0⟩ : Vec2 Float).IsPlaced :=
    ⟨⟨by decide +kernel, by decide +kernel⟩, by decide +kernel, by decide +kernel⟩
  have hplaced : (⟨#[.resting], #[0], #[40]⟩ : Draft Float).IsPlaced := by
    intro path hpath point hpoint
    rw [Array.mem_singleton.mp hpath] at hpoint
    simp only [Path.resting, Path.new, List.mem_toArray, List.mem_cons, List.not_mem_nil,
      or_false, or_self] at hpoint
    exact hpoint ▸ horigin
  have hlost : (Path.padded .resting
      (BuildSettings.unbounded.nozzleDiameter / 2.0)).first.x.isFinite = false := by
    decide +kernel
  refine ⟨.unbounded, _, hvalid, hplaced, _,
    Array.mem_map.mpr ⟨_, Array.mem_singleton.mpr rfl, rfl⟩, Path.first _, Array.getElem_mem _, ?_⟩
  intro h
  exact Bool.false_ne_true (hlost.symm.trans h.x)

end Extrusion
