import Extrusion.Proofs.Arc.Corners
import Extrusion.Proofs.Layer.Trace

/-!
# Chords

In exact arithmetic neighbouring corners of a polyline differ by a turn about the
pivot.  These turns add up to the turn of the arc, and none is larger than the
step, so no chord leaves the circle by more than the error.  Where the number of
corners is capped, the turns are all the same.
-/

namespace Extrusion

theorem edges_map {β γ : Type} (f : β → γ) (list : List β) :
    edges (list.map f) = (edges list).map (Prod.map f f) := by
  induction list with
  | nil => rfl
  | cons first rest ih =>
      cases rest with
      | nil => rfl
      | cons second rest => exact congrArg ((f first, f second) :: ·) ih

namespace Arc

noncomputable def gaps (angles : List ℝ) : List ℝ :=
  (edges angles).map fun turn => turn.2 - turn.1

structure Sweeps (arc : Arc ℝ) (gap : ℝ) (edge : Vec2 ℝ × Vec2 ℝ) : Prop where
  turned : edge.2 = edge.1.rotated arc.pivot gap
  /-- The middle of the edge is that far from the middle of the turn. -/
  sagitta : (edge.1.rotated arc.pivot (gap / 2)).distance ((edge.1 + edge.2).scale (1 / 2)) =
    arc.source.distance arc.pivot * (1 - Real.cos (gap / 2))

theorem forall₂_sweeps (arc : Arc ℝ) (angles : List ℝ) :
    List.Forall₂ arc.Sweeps (gaps angles)
      (edges (angles.map (arc.source.rotated arc.pivot))) := by
  unfold gaps
  rw [edges_map, List.forall₂_map_left_iff, List.forall₂_map_right_iff, List.forall₂_same]
  intro turn _
  have hturned : arc.source.rotated arc.pivot turn.2 =
      (arc.source.rotated arc.pivot turn.1).rotated arc.pivot (turn.2 - turn.1) := by
    rw [Vec2.rotated_rotated, add_sub_cancel]
  refine ⟨hturned, ?_⟩
  show (Vec2.rotated (arc.source.rotated arc.pivot turn.1) arc.pivot _).distance
    ((arc.source.rotated arc.pivot turn.1 + arc.source.rotated arc.pivot turn.2).scale _) = _
  rw [hturned, Vec2.distance_middle, Vec2.distance_rotated]

theorem gaps_map_signed (rotation : Rotation) (angles : List ℝ) :
    gaps (angles.map (signed rotation)) = (gaps angles).map (signed rotation) := by
  unfold gaps
  rw [edges_map, List.map_map, List.map_map]
  refine List.map_congr_left fun turn _ => ?_
  cases rotation with
  | counterclockwise => rfl
  | clockwise =>
      show -turn.2 - -turn.1 = -(turn.2 - turn.1)
      ring

theorem gaps_evenly (first spacing : ℝ) (count : ℕ) :
    gaps (0 :: (List.range (count + 1)).map fun k : ℕ => first + spacing * k) =
      first :: List.replicate count spacing := by
  induction count with
  | zero =>
      show [first + spacing * (0 : ℕ) - 0] = [first]
      rw [Nat.cast_zero, mul_zero, add_zero, sub_zero]
  | succ count ih =>
      have hfront : (0 :: (List.range (count + 1)).map fun k : ℕ => first + spacing * k) =
          (0 :: (List.range count).map fun k : ℕ => first + spacing * k) ++
            [first + spacing * count] := by
        rw [List.range_succ, List.map_append]
        rfl
      have hlast : (0 :: (List.range (count + 2)).map fun k : ℕ => first + spacing * k) =
          (0 :: (List.range count).map fun k : ℕ => first + spacing * k) ++
            [first + spacing * count, first + spacing * (count + 1 : ℕ)] := by
        rw [List.range_succ, List.range_succ, List.map_append, List.map_append,
          List.append_assoc]
        rfl
      have hspacing : first + spacing * (count + 1 : ℕ) - (first + spacing * count) = spacing := by
        push_cast
        ring
      unfold gaps at ih ⊢
      rw [hlast, edges_concat, ← hfront, List.map_append, ih, List.replicate_succ',
        List.map_singleton, hspacing]
      rfl

theorem gaps_cornerAngles {total step : ℝ} (htotal : 0 < total) (hstep : 0 < step) :
    gaps (0 :: cornerAngles total step ++ [total]) =
      (firstCorner total step).1 :: List.replicate (firstCorner total step).2
        ((total - (firstCorner total step).1) / (firstCorner total step).2) := by
  have hcount : ((firstCorner total step).2 : ℝ) ≠ 0 :=
    Nat.cast_ne_zero.mpr ((spread_firstCorner htotal hstep).count_pos htotal hstep).ne'
  have hend : total = (firstCorner total step).1 +
      (total - (firstCorner total step).1) / (firstCorner total step).2 *
        (firstCorner total step).2 := by
    rw [div_mul_cancel₀ _ hcount]
    ring
  rw [← gaps_evenly, List.range_succ, List.map_append, List.map_singleton, ← hend,
    ← cornerAngles_real]
  rfl

namespace Spread

variable {total step first : ℝ} {count : ℕ}

theorem first_le (h : Spread total step first count) (htotal : 0 < total) : first ≤ total := by
  by_cases heq : step = total
  · exact (h.eq_of_step_eq htotal heq).1.le
  · exact (h.first_lt htotal heq).le

theorem sum_gaps (h : Spread total step first count) (htotal : 0 < total) (hstep : 0 < step) :
    (first :: List.replicate count ((total - first) / count)).sum = total := by
  have hcount : (count : ℝ) ≠ 0 := Nat.cast_ne_zero.mpr (h.count_pos htotal hstep).ne'
  rw [List.sum_cons, List.sum_replicate, nsmul_eq_mul, mul_div_cancel₀ _ hcount,
    add_sub_cancel]

theorem gap_bounds (h : Spread total step first count) (htotal : 0 < total) (hstep : 0 < step)
    {gap : ℝ} (hgap : gap ∈ first :: List.replicate count ((total - first) / count)) :
    0 ≤ gap ∧ gap ≤ first := by
  rcases List.mem_cons.mp hgap with rfl | hlater
  · exact ⟨(h.first_pos htotal hstep).le, le_rfl⟩
  · rw [List.eq_of_mem_replicate hlater]
    exact ⟨div_nonneg (sub_nonneg.mpr (h.first_le htotal)) count.cast_nonneg,
      h.spacing_le htotal hstep⟩

theorem gap_eq (h : Spread total step first count) (hcapped : count = maxCorners) {gap : ℝ}
    (hgap : gap ∈ first :: List.replicate count ((total - first) / count)) :
    gap = total / (maxCorners + 1 : ℕ) := by
  rw [← h.first_eq hcapped]
  rcases List.mem_cons.mp hgap with hfirst | hlater
  · exact hfirst
  · rw [List.eq_of_mem_replicate hlater, h.spacing_eq hcapped]

end Spread

/-!
# Turns of one step at most
-/

/-- A chord over one step at most leaves the circle by the error at most. -/
theorem sagitta_le {radius maxError gap : ℝ} (hradius : 0 < radius) (herror : 0 < maxError)
    (hgap : 0 ≤ gap) (hstep : gap ≤ step radius maxError) :
    radius * (1 - Real.cos (gap / 2)) ≤ maxError := by
  rw [step_eq] at hstep
  have hratio : 0 < maxError / radius := div_pos herror hradius
  have hcos : 1 - maxError / radius ≤ Real.cos (gap / 2) := by
    calc
      1 - maxError / radius = min 1 (1 - maxError / radius) := by
        rw [min_eq_right (by linarith)]
      _ ≤ max (-1) (min 1 (1 - maxError / radius)) := le_max_right _ _
      _ = Real.cos (Real.arccos (max (-1) (min 1 (1 - maxError / radius)))) := by
        rw [Real.cos_arccos (le_max_left _ _) (max_le (by norm_num) (min_le_left _ _))]
      _ ≤ Real.cos (gap / 2) :=
        Real.cos_le_cos_of_nonneg_of_le_pi (by linarith) (Real.arccos_le_pi _) (by linarith)
  have hcancel : radius * (maxError / radius) = maxError := mul_div_cancel₀ maxError hradius.ne'
  calc
    radius * (1 - Real.cos (gap / 2)) ≤ radius * (maxError / radius) :=
      mul_le_mul_of_nonneg_left (by linarith) hradius.le
    _ = maxError := hcancel

/-- The angles of all corners, in the direction of the arc. -/
noncomputable def advances (arc : Arc ℝ) (maxError : ℝ) : List ℝ :=
  0 :: cornerAngles arc.sweep (step (arc.source.distance arc.pivot) maxError) ++ [arc.sweep]

/-- All corners are turns of the source, the destination by the turn of the arc. -/
theorem polyline?_eq_map_advances {arc : Arc ℝ} (hradius : arc.source.distance arc.pivot ≠ 0)
    (hequidistant : arc.destination.distance arc.pivot = arc.source.distance arc.pivot)
    (maxError : ℝ) :
    arc.polyline? maxError =
      some (((arc.advances maxError).map (signed arc.rotation)).map
        (arc.source.rotated arc.pivot)) := by
  have hstart : signed arc.rotation (0 : ℝ) = 0 := by
    cases arc.rotation with
    | counterclockwise => rfl
    | clockwise => exact neg_zero
  rw [polyline?_of_centred (centred_of_equidistant hequidistant), innerAngles_real hradius]
  unfold advances
  rw [List.map_append, List.map_append, List.map_cons, List.map_cons, hstart, Vec2.rotated_zero,
    List.map_singleton, List.map_singleton, signed_sweep, rotated_totalAngle hradius hequidistant]

theorem length_advances (arc : Arc ℝ) (maxError : ℝ) :
    (arc.advances maxError).length =
      (firstCorner arc.sweep (step (arc.source.distance arc.pivot) maxError)).2 + 2 := by
  unfold advances
  rw [List.length_append, List.length_cons, length_cornerAngles]
  rfl

/-- The chords of an arc whose source and destination are equally far from the pivot. -/
theorem chordRule (arc : Arc ℝ) (maxError : ℝ)
    (hradius : arc.source.distance arc.pivot ≠ 0)
    (hequidistant : arc.destination.distance arc.pivot = arc.source.distance arc.pivot)
    (herror : 0 < maxError) :
    ∃ corners turns, arc.polyline? maxError = some corners ∧
      List.Forall₂ arc.Sweeps turns (edges corners) ∧
      turns.sum = arc.totalAngle ∧
      (∀ turn ∈ turns, 0 ≤ signed arc.rotation turn) ∧
      (corners.length < maxCorners + 2 → ∀ turn ∈ turns,
        |turn| ≤ |stepAngle (arc.source.distance arc.pivot) maxError arc.rotation| ∧
          arc.source.distance arc.pivot * (1 - Real.cos (turn / 2)) ≤ maxError) ∧
      (corners.length = maxCorners + 2 → ∀ turn ∈ turns,
        turn = arc.totalAngle / (maxCorners + 1 : ℕ)) := by
  have hpos := radius_pos hradius
  have hstep := step_pos hpos herror
  have hspread := spread_firstCorner arc.sweep_pos hstep
  have hgaps : gaps ((arc.advances maxError).map (signed arc.rotation)) = _ :=
    (gaps_map_signed _ _).trans
      (congrArg (List.map (signed arc.rotation)) (gaps_cornerAngles arc.sweep_pos hstep))
  have hlength := length_advances arc maxError
  have hsweeps := forall₂_sweeps arc ((arc.advances maxError).map (signed arc.rotation))
  refine ⟨_, _, polyline?_eq_map_advances hradius hequidistant maxError, hsweeps, ?_⟩
  rw [hgaps, List.length_map, List.length_map, hlength, abs_stepAngle hpos herror]
  generalize (firstCorner arc.sweep (step (arc.source.distance arc.pivot) maxError)).1 = first
    at hspread ⊢
  generalize (firstCorner arc.sweep (step (arc.source.distance arc.pivot) maxError)).2 = count
    at hspread ⊢
  have hbounds {turn : ℝ} (hturn : turn ∈ first :: List.replicate count _) :=
    hspread.gap_bounds arc.sweep_pos hstep hturn
  refine ⟨?_, ?_, ?_, ?_⟩
  · rw [sum_map_signed, hspread.sum_gaps arc.sweep_pos hstep, signed_sweep]
  · intro turn hturn
    rcases List.mem_map.mp hturn with ⟨size, hsize, rfl⟩
    rw [signed_signed]
    exact (hbounds hsize).1
  · intro hfew turn hturn
    rcases List.mem_map.mp hturn with ⟨size, hsize, rfl⟩
    rcases hbounds hsize with ⟨hnonneg, hle⟩
    have hsmall : size ≤ step (arc.source.distance arc.pivot) maxError :=
      hle.trans (hspread.first_le_step arc.sweep_pos (by omega))
    rw [abs_signed, abs_of_nonneg hnonneg, cos_signed_half]
    exact ⟨hsmall, sagitta_le hpos herror hnonneg hsmall⟩
  · intro hcapped turn hturn
    rcases List.mem_map.mp hturn with ⟨size, hsize, rfl⟩
    rw [hspread.gap_eq (by omega) hsize, signed_div, signed_sweep]

theorem length_advances_threeQuarters : (threeQuarters.advances 1).length = 4 := by
  have hceil : ⌈threeQuarters.sweep / step 1 1⌉₊ = 2 := by
    rw [threeQuarters_sweep, step_one, mul_div_cancel_right₀ _ Real.pi_ne_zero,
      Nat.ceil_eq_iff two_ne_zero]
    norm_num
  have hle : ¬ |threeQuarters.sweep| < |step 1 1| := by
    rw [threeQuarters_sweep, step_one, abs_of_pos (by positivity), abs_of_pos Real.pi_pos]
    linarith [Real.pi_pos]
  rw [length_advances, threeQuarters_source, firstCorner_real, if_neg hle]
  dsimp only
  rw [hceil]
  rfl

theorem chordRule_threeQuarters :
    threeQuarters.source.distance threeQuarters.pivot ≠ 0 ∧
      threeQuarters.destination.distance threeQuarters.pivot =
        threeQuarters.source.distance threeQuarters.pivot ∧
      (0 : ℝ) < 1 ∧
      ∃ corners turns, threeQuarters.polyline? 1 = some corners ∧
        List.Forall₂ threeQuarters.Sweeps turns (edges corners) ∧
        turns.sum = -(3 / 2 * Real.pi) ∧
        ∀ turn ∈ turns, |turn| ≤ Real.pi ∧ 1 * (1 - Real.cos (turn / 2)) ≤ 1 := by
  have hradius := threeQuarters_radius_ne_zero
  rcases chordRule threeQuarters 1 hradius threeQuarters_equidistant one_pos with
    ⟨corners, turns, hpolyline, hsweeps, hsum, _, hfew, _⟩
  have hlength : corners.length < maxCorners + 2 := by
    have hcorners := polyline?_eq_map_advances hradius threeQuarters_equidistant 1
    rw [hpolyline, Option.some_inj] at hcorners
    rw [hcorners, List.length_map, List.length_map, length_advances_threeQuarters]
    decide
  have hbounds := hfew hlength
  rw [abs_stepAngle (radius_pos hradius) one_pos, threeQuarters_source, step_one] at hbounds
  rw [threeQuarters_totalAngle] at hsum
  exact ⟨hradius, threeQuarters_equidistant, one_pos, corners, turns, hpolyline, hsweeps, hsum,
    hbounds⟩

end Arc
end Extrusion
