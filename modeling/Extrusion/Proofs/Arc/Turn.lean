import Extrusion.Arc
import Extrusion.Proofs.Geometry.Angle

/-!
# Turns

The turn of an arc leads its source to its destination.  It has the direction of
the arc and is at most a full one, and the arc run backwards has the opposite turn.
-/

namespace Extrusion

def Rotation.reversed : Rotation → Rotation
  | .clockwise => .counterclockwise
  | .counterclockwise => .clockwise

namespace Arc

/-!
# Directions
-/

theorem signed_signed (rotation : Rotation) (angle : ℝ) :
    signed rotation (signed rotation angle) = angle := by
  cases rotation with
  | counterclockwise => rfl
  | clockwise => exact neg_neg angle

theorem abs_signed (rotation : Rotation) (angle : ℝ) : |signed rotation angle| = |angle| := by
  cases rotation with
  | counterclockwise => rfl
  | clockwise => exact abs_neg angle

theorem sum_map_signed (rotation : Rotation) (angles : List ℝ) :
    (angles.map (signed rotation)).sum = signed rotation angles.sum := by
  cases rotation with
  | counterclockwise => exact congrArg List.sum (List.map_id' angles)
  | clockwise => exact (map_list_sum (negAddMonoidHom : ℝ →+ ℝ) angles).symm

theorem cos_signed_half (rotation : Rotation) (angle : ℝ) :
    Real.cos (signed rotation angle / 2) = Real.cos (angle / 2) := by
  cases rotation with
  | counterclockwise => rfl
  | clockwise =>
      show Real.cos (-angle / 2) = _
      rw [neg_div, Real.cos_neg]

theorem signed_div (rotation : Rotation) (angle divisor : ℝ) :
    signed rotation (angle / divisor) = signed rotation angle / divisor := by
  cases rotation with
  | counterclockwise => rfl
  | clockwise => exact (neg_div divisor angle).symm

/-!
# Turns from source to destination
-/

def reversed {α : Type} (arc : Arc α) : Arc α :=
  ⟨arc.destination, arc.source, arc.pivot, arc.rotation.reversed⟩

/-- The angle from the source of an arc to its destination, which may be against the
direction of the arc. -/
noncomputable def shortAngle (arc : Arc ℝ) : ℝ :=
  (arc.source - arc.pivot).signedAngle (arc.destination - arc.pivot)

theorem totalAngle_counterclockwise {arc : Arc ℝ} (h : arc.rotation = .counterclockwise) :
    arc.totalAngle =
      if arc.shortAngle ≤ 0 then arc.shortAngle + 2 * Real.pi else arc.shortAngle := by
  unfold totalAngle
  rw [h]
  rfl

theorem totalAngle_clockwise {arc : Arc ℝ} (h : arc.rotation = .clockwise) :
    arc.totalAngle =
      if 0 ≤ arc.shortAngle then arc.shortAngle - 2 * Real.pi else arc.shortAngle := by
  unfold totalAngle
  rw [h]
  rfl

theorem shortAngle_bounds (arc : Arc ℝ) :
    -Real.pi < arc.shortAngle ∧ arc.shortAngle ≤ Real.pi := by
  have hpi := Real.pi_pos
  rcases Vec2.signedAngle_cases (arc.source - arc.pivot) (arc.destination - arc.pivot) with
    ⟨_, hlow, hhigh⟩ | ⟨_, hlow, hhigh⟩
  · exact ⟨hlow, hhigh.le.trans hpi.le⟩
  · exact ⟨(neg_neg_of_pos hpi).trans_le hlow, hhigh⟩

theorem totalAngle_mem_of_counterclockwise {arc : Arc ℝ} (h : arc.rotation = .counterclockwise) :
    0 < arc.totalAngle ∧ arc.totalAngle ≤ 2 * Real.pi := by
  rcases arc.shortAngle_bounds with ⟨hlow, hhigh⟩
  have hpi := Real.pi_pos
  rw [totalAngle_counterclockwise h]
  split
  · constructor <;> linarith
  · constructor <;> linarith

theorem totalAngle_mem_of_clockwise {arc : Arc ℝ} (h : arc.rotation = .clockwise) :
    -(2 * Real.pi) ≤ arc.totalAngle ∧ arc.totalAngle < 0 := by
  rcases arc.shortAngle_bounds with ⟨hlow, hhigh⟩
  have hpi := Real.pi_pos
  rw [totalAngle_clockwise h]
  split
  · constructor <;> linarith
  · constructor <;> linarith

theorem rotated_totalAngle_eq (arc : Arc ℝ) :
    arc.source.rotated arc.pivot arc.totalAngle =
      arc.source.rotated arc.pivot arc.shortAngle := by
  cases h : arc.rotation with
  | clockwise =>
      rw [totalAngle_clockwise h]
      split
      · exact Vec2.rotated_congr _ _ (Real.cos_sub_two_pi _) (Real.sin_sub_two_pi _)
      · rfl
  | counterclockwise =>
      rw [totalAngle_counterclockwise h]
      split
      · exact Vec2.rotated_congr _ _ (Real.cos_add_two_pi _) (Real.sin_add_two_pi _)
      · rfl

theorem rotated_totalAngle {arc : Arc ℝ} (hradius : arc.source.distance arc.pivot ≠ 0)
    (h : arc.destination.distance arc.pivot = arc.source.distance arc.pivot) :
    arc.source.rotated arc.pivot arc.totalAngle = arc.destination := by
  rw [rotated_totalAngle_eq]
  exact Vec2.rotated_signedAngle hradius h

/-!
# Running backwards
-/

/-- Backwards the short angle is the opposite one, unless source and destination lie on
one line with the pivot. -/
theorem shortAngle_reversed {arc : Arc ℝ} (hsource : arc.source.distance arc.pivot ≠ 0)
    (hdestination : arc.destination.distance arc.pivot ≠ 0) :
    arc.shortAngle ≠ 0 ∧ arc.reversed.shortAngle = -arc.shortAngle ∨
      (arc.shortAngle = 0 ∨ arc.shortAngle = Real.pi) ∧
        arc.reversed.shortAngle = arc.shortAngle := by
  by_cases hline : (arc.source - arc.pivot).determinant (arc.destination - arc.pivot) = 0
  · exact Or.inr ⟨Vec2.signedAngle_of_determinant_eq_zero hsource hdestination hline,
      Vec2.signedAngle_comm_of_determinant_eq_zero hline⟩
  · exact Or.inl ⟨Vec2.signedAngle_ne_zero hline, Vec2.signedAngle_swap hline⟩

theorem totalAngle_reversed_of_counterclockwise {arc : Arc ℝ}
    (h : arc.rotation = .counterclockwise) (hsource : arc.source.distance arc.pivot ≠ 0)
    (hdestination : arc.destination.distance arc.pivot ≠ 0) :
    arc.reversed.totalAngle = -arc.totalAngle := by
  have hreversed : arc.reversed.rotation = .clockwise := by
    show arc.rotation.reversed = _
    rw [h]
    rfl
  have hpi := Real.pi_pos
  rw [totalAngle_counterclockwise h, totalAngle_clockwise hreversed]
  rcases shortAngle_reversed hsource hdestination with ⟨hne, hback⟩ | ⟨hzero | hhalf, hback⟩
  · rw [hback]
    rcases hne.lt_or_gt with hneg | hpos
    · rw [if_pos hneg.le, if_pos (by linarith)]
      ring
    · rw [if_neg hpos.not_ge, if_neg (by linarith)]
  · rw [hback, hzero, if_pos le_rfl, if_pos le_rfl]
    ring
  · rw [hback, hhalf, if_pos hpi.le, if_neg hpi.not_ge]
    ring

theorem totalAngle_reversed {arc : Arc ℝ} (hsource : arc.source.distance arc.pivot ≠ 0)
    (hdestination : arc.destination.distance arc.pivot ≠ 0) :
    arc.reversed.totalAngle = -arc.totalAngle := by
  cases h : arc.rotation with
  | counterclockwise =>
      exact totalAngle_reversed_of_counterclockwise h hsource hdestination
  | clockwise =>
      -- The arc is what its reversal leads to backwards.
      have hreversed : arc.reversed.rotation = .counterclockwise := by
        show arc.rotation.reversed = _
        rw [h]
        rfl
      have htwice : arc.reversed.reversed = arc := by
        unfold reversed Rotation.reversed
        rw [h]
        exact (congrArg (Arc.mk _ _ _) h).symm
      have hback := totalAngle_reversed_of_counterclockwise hreversed hdestination hsource
      rw [htwice] at hback
      rw [hback, neg_neg]

/-- The turn of an arc whose source and destination are equally far from the pivot. -/
theorem turnRule (arc : Arc ℝ) (hradius : arc.source.distance arc.pivot ≠ 0)
    (hequidistant : arc.destination.distance arc.pivot = arc.source.distance arc.pivot) :
    (arc.rotation = .counterclockwise → 0 < arc.totalAngle ∧ arc.totalAngle ≤ 2 * Real.pi) ∧
      (arc.rotation = .clockwise → -(2 * Real.pi) ≤ arc.totalAngle ∧ arc.totalAngle < 0) ∧
      arc.source.rotated arc.pivot arc.totalAngle = arc.destination ∧
      arc.reversed.totalAngle = -arc.totalAngle :=
  ⟨totalAngle_mem_of_counterclockwise, totalAngle_mem_of_clockwise,
    rotated_totalAngle hradius hequidistant,
    totalAngle_reversed hradius (hequidistant ▸ hradius)⟩

noncomputable def threeQuarters : Arc ℝ :=
  ⟨⟨1, 0⟩, ⟨0, 1⟩, ⟨0, 0⟩, .clockwise⟩

theorem threeQuarters_source : threeQuarters.source.distance threeQuarters.pivot = 1 := by
  show √((1 - 0) * (1 - 0) + (0 - 0) * (0 - 0) : ℝ) = 1
  norm_num

theorem threeQuarters_destination :
    threeQuarters.destination.distance threeQuarters.pivot = 1 := by
  show √((0 - 0) * (0 - 0) + (1 - 0) * (1 - 0) : ℝ) = 1
  norm_num

theorem threeQuarters_radius_ne_zero :
    threeQuarters.source.distance threeQuarters.pivot ≠ 0 := by
  rw [threeQuarters_source]
  exact one_ne_zero

theorem threeQuarters_equidistant :
    threeQuarters.destination.distance threeQuarters.pivot =
      threeQuarters.source.distance threeQuarters.pivot :=
  threeQuarters_destination.trans threeQuarters_source.symm

theorem threeQuarters_totalAngle : threeQuarters.totalAngle = -(3 / 2 * Real.pi) := by
  have hdestination : (threeQuarters.destination - threeQuarters.pivot).length ≠ 0 := by
    show threeQuarters.destination.distance threeQuarters.pivot ≠ 0
    rw [threeQuarters_destination]
    exact one_ne_zero
  have hdot : (threeQuarters.source - threeQuarters.pivot).dot
      (threeQuarters.destination - threeQuarters.pivot) = 0 := by
    show ((1 - 0) * (0 - 0) + (0 - 0) * (1 - 0) : ℝ) = 0
    norm_num
  have hdeterminant : 0 ≤ (threeQuarters.source - threeQuarters.pivot).determinant
      (threeQuarters.destination - threeQuarters.pivot) := by
    show (0 : ℝ) ≤ (1 - 0) * (1 - 0) - (0 - 0) * (0 - 0)
    norm_num
  have hquarter : threeQuarters.shortAngle = Real.pi / 2 := by
    unfold shortAngle
    rw [Vec2.signedAngle_of_determinant_nonneg hdeterminant,
      Vec2.innerAngle_eq threeQuarters_radius_ne_zero hdestination, hdot, zero_div,
      Real.arccos_zero]
  rw [totalAngle_clockwise rfl, hquarter, if_pos (by positivity)]
  ring

theorem turnRule_threeQuarters :
    threeQuarters.source.distance threeQuarters.pivot ≠ 0 ∧
      threeQuarters.destination.distance threeQuarters.pivot =
        threeQuarters.source.distance threeQuarters.pivot ∧
      threeQuarters.totalAngle < 0 ∧
      threeQuarters.source.rotated threeQuarters.pivot threeQuarters.totalAngle = ⟨0, 1⟩ ∧
      threeQuarters.reversed.totalAngle = -threeQuarters.totalAngle := by
  rcases turnRule threeQuarters threeQuarters_radius_ne_zero threeQuarters_equidistant with
    ⟨_, hclockwise, hturned, hback⟩
  exact ⟨threeQuarters_radius_ne_zero, threeQuarters_equidistant, (hclockwise rfl).2, hturned,
    hback⟩

end Arc
end Extrusion
