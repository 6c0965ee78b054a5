import Extrusion.Proofs.Arc.Polyline
import Extrusion.Proofs.Arc.Turn

/-!
# Corners in between

In exact arithmetic the corners of a polyline turn about the pivot step by step:
each by the same angle after the first one, and the last of them short of the
destination.  Only where one step is the whole turn does the first corner lie on
the destination.
-/

namespace Extrusion
namespace Arc

inductive Spread (total step : ℝ) : ℝ → ℕ → Prop where
  | short (h : total < step) : Spread total step (total / 2) 2
  | even (h : step ≤ total) (hfew : ⌈total / step⌉₊ < maxCorners) :
      Spread total step step ⌈total / step⌉₊
  | capped (h : step ≤ total) (hmany : maxCorners ≤ ⌈total / step⌉₊) :
      Spread total step (total / (maxCorners + 1 : ℕ)) maxCorners

theorem firstCorner_real (total step : ℝ) :
    firstCorner total step =
      let first := if |total| < |step| then total / 2 else step
      let count := min maxCorners ⌈total / first⌉₊
      (if count = maxCorners then total / (count + 1 : ℕ) else first, count) := by
  have htwo : (2.0 : ℝ) = 2 := by norm_num
  have hhalf : (if Scalar.abs total < Scalar.abs step then total / (2.0 : ℝ) else step) =
      if |total| < |step| then total / 2 else step := by
    rw [Scalar.abs_real, Scalar.abs_real, htwo]
  rw [← hhalf]
  rfl

theorem spread_firstCorner {total step : ℝ} (htotal : 0 < total) (hstep : 0 < step) :
    Spread total step (firstCorner total step).1 (firstCorner total step).2 := by
  rw [firstCorner_real, abs_of_pos htotal, abs_of_pos hstep]
  dsimp only
  split
  · have htwo : total / (total / 2) = 2 := by field_simp
    have hcount : min maxCorners ⌈(2 : ℝ)⌉₊ = 2 := by
      rw [Nat.ceil_ofNat]
      rfl
    rw [htwo, hcount, if_neg (by decide)]
    exact .short ‹_›
  · rename_i hlt
    rcases lt_or_ge ⌈total / step⌉₊ maxCorners with hfew | hmany
    · rw [min_eq_right hfew.le, if_neg hfew.ne]
      exact .even (not_lt.mp hlt) hfew
    · rw [min_eq_left hmany, if_pos rfl]
      exact .capped (not_lt.mp hlt) hmany

namespace Spread

variable {total step first : ℝ} {count : ℕ}

theorem count_pos (h : Spread total step first count) (htotal : 0 < total) (hstep : 0 < step) :
    0 < count := by
  cases h with
  | short h => decide
  | even h hfew => exact Nat.ceil_pos.mpr (div_pos htotal hstep)
  | capped h hmany => decide

theorem first_pos (h : Spread total step first count) (htotal : 0 < total) (hstep : 0 < step) :
    0 < first := by
  cases h with
  | short h => exact half_pos htotal
  | even h hfew => exact hstep
  | capped h hmany => exact div_pos htotal (by positivity)

theorem first_lt (h : Spread total step first count) (htotal : 0 < total)
    (hne : step ≠ total) : first < total := by
  cases h with
  | short h => exact half_lt_self htotal
  | even h hfew => exact h.lt_of_ne hne
  | capped h hmany => exact div_lt_self htotal (by unfold maxCorners; norm_num)

theorem first_eq (h : Spread total step first count) (hcapped : count = maxCorners) :
    first = total / (maxCorners + 1 : ℕ) := by
  cases h with
  | short h => cases hcapped
  | even h hfew => exact absurd hcapped hfew.ne
  | capped h hmany => rfl

theorem spacing_le (h : Spread total step first count) (htotal : 0 < total) (hstep : 0 < step) :
    (total - first) / count ≤ first := by
  have hcount : (0 : ℝ) < count := Nat.cast_pos.mpr (h.count_pos htotal hstep)
  rw [div_le_iff₀ hcount]
  cases h with
  | short h =>
      push_cast
      linarith
  | even h hfew =>
      have hceil : total ≤ step * ⌈total / step⌉₊ := by
        rw [← div_le_iff₀' hstep]
        exact Nat.le_ceil _
      linarith
  | capped h hmany =>
      have hsum : total / (maxCorners + 1 : ℕ) * (maxCorners + 1 : ℕ) = total :=
        div_mul_cancel₀ total (by positivity)
      push_cast at hsum ⊢
      linarith

theorem first_le_step (h : Spread total step first count) (htotal : 0 < total)
    (hfew : count < maxCorners) : first ≤ step := by
  cases h with
  | short h => linarith
  | even h hfew => exact le_rfl
  | capped h hmany => exact absurd hfew (lt_irrefl _)

theorem spacing_eq (h : Spread total step first count) (hcapped : count = maxCorners) :
    (total - first) / count = first := by
  have hcount : ((maxCorners : ℕ) : ℝ) ≠ 0 := by
    unfold maxCorners
    norm_num
  rw [h.first_eq hcapped, hcapped]
  push_cast
  field_simp
  ring

theorem eq_of_step_eq (h : Spread total step first count) (htotal : 0 < total)
    (heq : step = total) : first = total ∧ count = 1 := by
  have hone : ⌈total / step⌉₊ = 1 := by
    rw [heq, div_self htotal.ne', Nat.ceil_one]
  cases h with
  | short h => exact absurd heq h.ne'
  | even h hfew => exact ⟨heq, hone⟩
  | capped h hmany =>
      rw [hone] at hmany
      exact absurd hmany (by decide)

end Spread

/-!
# Angles of corners
-/

theorem cornerAngles_real (total step : ℝ) :
    cornerAngles total step = (List.range (firstCorner total step).2).map fun k : ℕ =>
      (firstCorner total step).1 +
        (total - (firstCorner total step).1) / (firstCorner total step).2 * k := rfl

/-- Unless one step is the whole turn, the corners advance and stay short of the
destination. -/
theorem cornerAngles_advance {total step : ℝ} (htotal : 0 < total) (hstep : 0 < step)
    (hne : step ≠ total) :
    (cornerAngles total step).Pairwise (· < ·) ∧
      ∀ angle ∈ cornerAngles total step, 0 < angle ∧ angle < total := by
  have hspread := spread_firstCorner htotal hstep
  rw [cornerAngles_real]
  generalize (firstCorner total step).1 = first at hspread ⊢
  generalize (firstCorner total step).2 = count at hspread ⊢
  have hfirst := hspread.first_pos htotal hstep
  have hcount : (0 : ℝ) < count := Nat.cast_pos.mpr (hspread.count_pos htotal hstep)
  have hspacing : 0 < (total - first) / count :=
    div_pos (sub_pos.mpr (hspread.first_lt htotal hne)) hcount
  have hend : first + (total - first) / count * count = total := by
    rw [div_mul_cancel₀ _ hcount.ne']
    ring
  constructor
  · rw [List.pairwise_map]
    refine List.pairwise_lt_range.imp fun hlt => ?_
    have hcast := Nat.cast_lt (α := ℝ).mpr hlt
    linarith [mul_lt_mul_of_pos_left hcast hspacing]
  · intro angle hangle
    rcases List.mem_map.mp hangle with ⟨k, hk, rfl⟩
    have hcast := Nat.cast_lt (α := ℝ).mpr (List.mem_range.mp hk)
    have hadvance := mul_nonneg hspacing.le k.cast_nonneg
    exact ⟨by linarith, by linarith [mul_lt_mul_of_pos_left hcast hspacing]⟩

theorem cornerAngles_self {total : ℝ} (htotal : 0 < total) :
    cornerAngles total total = [total] := by
  rcases (spread_firstCorner htotal htotal).eq_of_step_eq htotal rfl with ⟨hfirst, hcount⟩
  rw [cornerAngles_real, hfirst, hcount]
  simp

/-!
# Directions
-/

theorem firstCorner_neg (total step : ℝ) :
    firstCorner (-total) (-step) = (-(firstCorner total step).1, (firstCorner total step).2) := by
  have hfirst : (if |total| < |step| then -total / 2 else -step) =
      -if |total| < |step| then total / 2 else step := by
    split
    · exact neg_div 2 total
    · rfl
  rw [firstCorner_real, firstCorner_real, abs_neg, abs_neg, hfirst]
  generalize (if |total| < |step| then total / 2 else step) = first
  dsimp only
  rw [neg_div_neg_eq]
  split
  · rw [neg_div]
  · rfl

theorem cornerAngles_signed (rotation : Rotation) (total step : ℝ) :
    cornerAngles (signed rotation total) (signed rotation step) =
      (cornerAngles total step).map (signed rotation) := by
  cases rotation with
  | counterclockwise => exact (List.map_id' _).symm
  | clockwise =>
      show cornerAngles (-total) (-step) = (cornerAngles total step).map (-·)
      rw [cornerAngles_real, cornerAngles_real, firstCorner_neg, List.map_map]
      refine List.map_congr_left fun k _ => ?_
      show -_ + (-total - -_) / _ * (k : ℝ) = -(_ + (total - _) / _ * (k : ℝ))
      ring

/-- How far an arc turns in its own direction. -/
noncomputable def sweep (arc : Arc ℝ) : ℝ :=
  signed arc.rotation arc.totalAngle

theorem signed_sweep (arc : Arc ℝ) : signed arc.rotation arc.sweep = arc.totalAngle :=
  signed_signed _ _

theorem sweep_pos (arc : Arc ℝ) : 0 < arc.sweep := by
  unfold sweep
  cases h : arc.rotation with
  | counterclockwise => exact (totalAngle_mem_of_counterclockwise h).1
  | clockwise => exact neg_pos.mpr (totalAngle_mem_of_clockwise h).2

theorem abs_totalAngle (arc : Arc ℝ) : |arc.totalAngle| = arc.sweep := by
  rw [← signed_sweep, abs_signed, abs_of_pos arc.sweep_pos]

noncomputable def step (radius maxError : ℝ) : ℝ :=
  stepAngle radius maxError .counterclockwise

theorem step_eq (radius maxError : ℝ) :
    step radius maxError = 2 * Real.arccos (max (-1) (min 1 (1 - maxError / radius))) := by
  have htwo : (2.0 : ℝ) = 2 := by norm_num
  rw [← Scalar.clamp_real (by norm_num), ← htwo]
  rfl

theorem stepAngle_real (radius maxError : ℝ) (rotation : Rotation) :
    stepAngle radius maxError rotation = signed rotation (step radius maxError) := rfl

theorem step_pos {radius maxError : ℝ} (hradius : 0 < radius) (herror : 0 < maxError) :
    0 < step radius maxError := by
  have hlt : max (-1) (min 1 (1 - maxError / radius)) < 1 := by
    have hratio := div_pos herror hradius
    exact max_lt (by norm_num) ((min_le_right _ _).trans_lt (by linarith))
  rw [step_eq]
  exact mul_pos two_pos (Real.arccos_pos.mpr hlt)

theorem abs_stepAngle {radius maxError : ℝ} (hradius : 0 < radius) (herror : 0 < maxError)
    (rotation : Rotation) : |stepAngle radius maxError rotation| = step radius maxError := by
  rw [stepAngle_real, abs_signed, abs_of_pos (step_pos hradius herror)]

/-!
# Polylines
-/

theorem radius_pos {arc : Arc ℝ} (h : arc.source.distance arc.pivot ≠ 0) :
    0 < arc.source.distance arc.pivot :=
  (Vec2.length_nonneg _).lt_of_ne' h

theorem innerAngles_real {arc : Arc ℝ} (h : arc.source.distance arc.pivot ≠ 0) (maxError : ℝ) :
    arc.innerAngles maxError =
      (cornerAngles arc.sweep (step (arc.source.distance arc.pivot) maxError)).map
        (signed arc.rotation) := by
  have hzero : ¬ (arc.source.distance arc.pivot == 0) = true := fun hzero =>
    h (Scalar.beq_real_iff.mp hzero)
  unfold innerAngles
  rw [if_neg hzero, stepAngle_real, ← signed_sweep, cornerAngles_signed]

theorem centred_of_equidistant {arc : Arc ℝ}
    (h : arc.destination.distance arc.pivot = arc.source.distance arc.pivot) : arc.Centred := by
  have hclose (radius : ℝ) : |radius - radius| ≤ (0.01 : ℝ) * max |radius| |radius| := by
    rw [sub_self, abs_zero]
    positivity
  show isClose _ _ _ = true
  unfold isClose
  rw [h, Scalar.abs_real, Scalar.abs_real, Scalar.max_real]
  exact decide_eq_true (hclose _)

/-- The corners of an arc that has a polyline.  Unless one step is the whole turn, they
advance in the direction of the arc and stay short of the destination; where it is,
the only corner is turned all the way onto the destination. -/
theorem cornersRule (arc : Arc ℝ) (maxError : ℝ) (corners : List (Vec2 ℝ))
    (hpolyline : arc.polyline? maxError = some corners)
    (hradius : arc.source.distance arc.pivot ≠ 0) (herror : 0 < maxError) :
    corners = arc.source ::
        (arc.innerAngles maxError).map (arc.source.rotated arc.pivot) ++ [arc.destination] ∧
      (|stepAngle (arc.source.distance arc.pivot) maxError arc.rotation| ≠ |arc.totalAngle| →
        (arc.innerAngles maxError).Pairwise
            (fun a b => signed arc.rotation a < signed arc.rotation b) ∧
          ∀ angle ∈ arc.innerAngles maxError, 0 < signed arc.rotation angle ∧
            signed arc.rotation angle < signed arc.rotation arc.totalAngle) ∧
      (|stepAngle (arc.source.distance arc.pivot) maxError arc.rotation| = |arc.totalAngle| →
        arc.innerAngles maxError = [arc.totalAngle]) := by
  have hcorners := (polyline?_eq_some_iff.mp hpolyline).2
  have hpos := radius_pos hradius
  rw [abs_stepAngle hpos herror, abs_totalAngle]
  refine ⟨hcorners.symm, ?_⟩
  rw [innerAngles_real hradius]
  constructor
  · intro hne
    rcases cornerAngles_advance arc.sweep_pos (step_pos hpos herror) hne with ⟨hpairwise, hmem⟩
    constructor
    · rw [List.pairwise_map]
      refine hpairwise.imp fun {a b} hlt => ?_
      rw [signed_signed, signed_signed]
      exact hlt
    · intro angle hangle
      rcases List.mem_map.mp hangle with ⟨size, hsize, rfl⟩
      rw [signed_signed]
      exact hmem size hsize
  · intro heq
    rw [heq, cornerAngles_self arc.sweep_pos, List.map_singleton, signed_sweep]

theorem threeQuarters_sweep : threeQuarters.sweep = 3 / 2 * Real.pi := by
  show -threeQuarters.totalAngle = _
  rw [threeQuarters_totalAngle, neg_neg]

theorem step_one : step 1 1 = Real.pi := by
  rw [step_eq, div_one, sub_self, min_eq_right zero_le_one, max_eq_right (by norm_num),
    Real.arccos_zero]
  ring

theorem cornersRule_threeQuarters :
    ∃ corners, threeQuarters.polyline? 1 = some corners ∧
      threeQuarters.source.distance threeQuarters.pivot ≠ 0 ∧ (0 : ℝ) < 1 ∧
      (threeQuarters.innerAngles 1).Pairwise (fun a b => -a < -b) ∧
      ∀ angle ∈ threeQuarters.innerAngles 1, 0 < -angle ∧ -angle < 3 / 2 * Real.pi := by
  have hradius := threeQuarters_radius_ne_zero
  have hpolyline := polyline?_of_centred (centred_of_equidistant threeQuarters_equidistant) 1
  rcases cornersRule threeQuarters 1 _ hpolyline hradius one_pos with ⟨_, hadvance, _⟩
  have hne : |stepAngle (threeQuarters.source.distance threeQuarters.pivot) 1
      threeQuarters.rotation| ≠ |threeQuarters.totalAngle| := by
    rw [abs_stepAngle (radius_pos hradius) one_pos, threeQuarters_source, abs_totalAngle,
      threeQuarters_sweep, step_one]
    intro heq
    linarith [Real.pi_pos]
  rcases hadvance hne with ⟨hpairwise, hbounds⟩
  rw [threeQuarters_totalAngle] at hbounds
  refine ⟨_, hpolyline, hradius, one_pos, hpairwise, fun angle hangle => ?_⟩
  rcases hbounds angle hangle with ⟨hlow, hhigh⟩
  exact ⟨hlow, hhigh.trans_eq (neg_neg _)⟩

/-!
# Small circles
-/

theorem sweep_of_circle {arc : Arc ℝ} (h : arc.destination = arc.source)
    (hradius : arc.source.distance arc.pivot ≠ 0) : arc.sweep = 2 * Real.pi := by
  have hshort : arc.shortAngle = 0 := by
    unfold shortAngle
    rw [h]
    exact Vec2.signedAngle_self hradius
  unfold sweep
  cases hrotation : arc.rotation with
  | counterclockwise =>
      rw [totalAngle_counterclockwise hrotation, hshort, if_pos le_rfl, zero_add]
      rfl
  | clockwise =>
      rw [totalAngle_clockwise hrotation, hshort, if_pos le_rfl, zero_sub]
      exact neg_neg _

theorem step_of_small {radius maxError : ℝ} (hradius : 0 < radius)
    (hsmall : 2 * radius ≤ maxError) : step radius maxError = 2 * Real.pi := by
  have hratio : 2 ≤ maxError / radius := (le_div_iff₀ hradius).mpr hsmall
  rw [step_eq, min_eq_right (by linarith), max_eq_left (by linarith), Real.arccos_neg_one]

/-- A full circle no wider than the error is turned onto its own source at once, and nothing
of it is left. -/
theorem polyline?_of_small_circle {arc : Arc ℝ} {maxError : ℝ}
    (hcircle : arc.destination = arc.source) (hradius : arc.source.distance arc.pivot ≠ 0)
    (hsmall : 2 * arc.source.distance arc.pivot ≤ maxError) :
    arc.innerAngles maxError = [arc.totalAngle] ∧
      arc.polyline? maxError = some [arc.source, arc.source, arc.source] := by
  have hequidistant : arc.destination.distance arc.pivot = arc.source.distance arc.pivot := by
    rw [hcircle]
  have hangles : arc.innerAngles maxError = [arc.totalAngle] := by
    rw [innerAngles_real hradius, step_of_small (radius_pos hradius) hsmall,
      ← sweep_of_circle hcircle hradius, cornerAngles_self arc.sweep_pos, List.map_singleton,
      signed_sweep]
  refine ⟨hangles, ?_⟩
  rw [polyline?_of_centred (centred_of_equidistant hequidistant), hangles, List.map_singleton,
    rotated_totalAngle hradius hequidistant, hcircle]
  rfl

noncomputable def smallCircle : Arc ℝ :=
  ⟨⟨1, 0⟩, ⟨1, 0⟩, ⟨0, 0⟩, .counterclockwise⟩

theorem smallCircle_corner_on_destination :
    smallCircle.source.distance smallCircle.pivot ≠ 0 ∧ (0 : ℝ) < 2 ∧
      smallCircle.polyline? 2 =
        some [smallCircle.source, smallCircle.destination, smallCircle.destination] ∧
      smallCircle.innerAngles 2 = [smallCircle.totalAngle] ∧
      ¬ ∀ angle ∈ smallCircle.innerAngles 2, 0 < angle ∧ angle < smallCircle.totalAngle := by
  have hone : smallCircle.source.distance smallCircle.pivot = 1 := threeQuarters_source
  have hradius : smallCircle.source.distance smallCircle.pivot ≠ 0 := by
    rw [hone]
    exact one_ne_zero
  have hsmall : 2 * smallCircle.source.distance smallCircle.pivot ≤ 2 := by rw [hone, mul_one]
  rcases polyline?_of_small_circle rfl hradius hsmall with ⟨hangles, hpolyline⟩
  refine ⟨hradius, two_pos, hpolyline, hangles, fun hbounds => ?_⟩
  rw [hangles] at hbounds
  exact lt_irrefl _ (hbounds _ (List.mem_singleton.mpr rfl)).2

end Arc
end Extrusion
