import Extrusion.Proofs.Arc.Polyline
import Extrusion.Proofs.Geometry.Angle

/-!
# Arcs from another origin

When the origin of the coordinate system moves, all points move the other way.  In
exact arithmetic their differences stay, and with them distances and angles, so an
arc runs through the same corners as before, each of them seen from the new origin.
-/

namespace Extrusion

section

variable {α : Type} [Scalar α]

/-- A point in the coordinate system that has its origin at the first point. -/
def Vec2.seenFrom (origin a : Vec2 α) : Vec2 α :=
  a - origin

def Arc.seenFrom (origin : Vec2 α) (arc : Arc α) : Arc α where
  source := Vec2.seenFrom origin arc.source
  destination := Vec2.seenFrom origin arc.destination
  pivot := Vec2.seenFrom origin arc.pivot
  rotation := arc.rotation

end

/-!
# Points
-/

namespace Vec2

variable (origin a b pivot : Vec2 ℝ)

theorem sub_seenFrom : seenFrom origin a - seenFrom origin b = a - b := by
  show (⟨a.x - origin.x - (b.x - origin.x), a.y - origin.y - (b.y - origin.y)⟩ : Vec2 ℝ) =
    ⟨a.x - b.x, a.y - b.y⟩
  rw [sub_sub_sub_cancel_right, sub_sub_sub_cancel_right]

theorem seenFrom_add : seenFrom origin (a + b) = seenFrom origin a + b := by
  show (⟨a.x + b.x - origin.x, a.y + b.y - origin.y⟩ : Vec2 ℝ) =
    ⟨a.x - origin.x + b.x, a.y - origin.y + b.y⟩
  rw [add_sub_right_comm, add_sub_right_comm]

theorem beq_seenFrom : (seenFrom origin a == seenFrom origin b) = (a == b) := by
  show (decide (a.x - origin.x = b.x - origin.x) && decide (a.y - origin.y = b.y - origin.y)) =
    (decide (a.x = b.x) && decide (a.y = b.y))
  simp only [sub_left_inj]

theorem distance_seenFrom : (seenFrom origin a).distance (seenFrom origin b) = a.distance b := by
  unfold distance
  rw [sub_seenFrom]

theorem rotated_seenFrom (angle : ℝ) :
    (seenFrom origin a).rotated (seenFrom origin pivot) angle =
      seenFrom origin (a.rotated pivot angle) := by
  rw [rotated_real, rotated_real, sub_seenFrom]
  show (⟨_ + (pivot.x - origin.x), _ + (pivot.y - origin.y)⟩ : Vec2 ℝ) =
    ⟨_ + pivot.x - origin.x, _ + pivot.y - origin.y⟩
  rw [add_sub_assoc, add_sub_assoc]

end Vec2

/-!
# Arcs
-/

namespace Arc

open Vec2

variable (origin : Vec2 ℝ) (arc : Arc ℝ) (maxError : ℝ)

theorem centred_seenFrom : (arc.seenFrom origin).Centred ↔ arc.Centred := by
  unfold Centred seenFrom
  rw [distance_seenFrom, distance_seenFrom]

theorem totalAngle_seenFrom : (arc.seenFrom origin).totalAngle = arc.totalAngle := by
  unfold totalAngle seenFrom
  rw [sub_seenFrom, sub_seenFrom]

theorem innerAngles_seenFrom :
    (arc.seenFrom origin).innerAngles maxError = arc.innerAngles maxError := by
  have hradius : (arc.seenFrom origin).source.distance (arc.seenFrom origin).pivot =
      arc.source.distance arc.pivot := distance_seenFrom origin arc.source arc.pivot
  unfold innerAngles
  rw [hradius, totalAngle_seenFrom]
  rfl

theorem polyline?_seenFrom :
    (arc.seenFrom origin).polyline? maxError =
      (arc.polyline? maxError).map (List.map (Vec2.seenFrom origin)) := by
  by_cases h : arc.Centred
  · have hcorners : (arc.innerAngles maxError).map
          ((arc.seenFrom origin).source.rotated (arc.seenFrom origin).pivot) =
        ((arc.innerAngles maxError).map (arc.source.rotated arc.pivot)).map
          (Vec2.seenFrom origin) := by
      rw [List.map_map]
      exact List.map_congr_left fun angle _ => rotated_seenFrom origin arc.source arc.pivot angle
    rw [polyline?_of_centred ((centred_seenFrom origin arc).mpr h), polyline?_of_centred h,
      innerAngles_seenFrom, hcorners, Option.map_some, List.map_append, List.map_cons,
      List.map_singleton]
    rfl
  · rw [polyline?_eq_none_iff.mpr (mt (centred_seenFrom origin arc).mp h),
      polyline?_eq_none_iff.mpr h, Option.map_none]

end Arc
end Extrusion
