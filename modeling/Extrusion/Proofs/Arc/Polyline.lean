import Extrusion.Arc

/-!
# Polylines of arcs

Where source and destination of an arc are equally far from the pivot, its
polyline leads from the one to the other, both as they are, over a bounded number
of corners in between.  Otherwise it has none.
-/

namespace Extrusion

theorem Numeric.Double.ceilUpTo_le (cap : Nat) (x : Float) : ceilUpTo cap x ≤ cap := by
  unfold ceilUpTo
  split
  · exact Nat.zero_le cap
  · exact Nat.min_le_left _ _
  · rename_i negative _
    cases negative
    · exact Nat.le_refl cap
    · exact Nat.zero_le cap
  · exact Nat.zero_le cap

namespace Arc

section

variable {α : Type} [Scalar α]

def Centred (arc : Arc α) : Prop :=
  isClose (arc.source.distance arc.pivot) (arc.destination.distance arc.pivot) radiusTolerance =
    true

/-- The angles of the corners between source and destination.  An arc around its own
source has none. -/
def innerAngles (arc : Arc α) (maxError : α) : List α :=
  if arc.source.distance arc.pivot == 0 then []
  else
    cornerAngles arc.totalAngle
      (stepAngle (arc.source.distance arc.pivot) maxError arc.rotation)

theorem polyline?_of_centred {arc : Arc α} (h : arc.Centred) (maxError : α) :
    arc.polyline? maxError =
      some (arc.source ::
        (arc.innerAngles maxError).map (arc.source.rotated arc.pivot) ++ [arc.destination]) := by
  have hclose : isClose (arc.source.distance arc.pivot) (arc.destination.distance arc.pivot)
      radiusTolerance = true := h
  unfold polyline? innerAngles
  simp only [hclose, Bool.not_true, Bool.false_eq_true, if_false]
  split <;> rfl

theorem polyline?_eq_none_iff {arc : Arc α} {maxError : α} :
    arc.polyline? maxError = none ↔ ¬ arc.Centred := by
  constructor
  · intro hnone hcentred
    rw [polyline?_of_centred hcentred] at hnone
    cases hnone
  · intro h
    have hfar : isClose (arc.source.distance arc.pivot) (arc.destination.distance arc.pivot)
        radiusTolerance = false := Bool.eq_false_iff.mpr h
    unfold polyline?
    simp only [hfar]
    rfl

theorem polyline?_eq_some_iff {arc : Arc α} {maxError : α} {corners : List (Vec2 α)} :
    arc.polyline? maxError = some corners ↔
      arc.Centred ∧
        arc.source :: (arc.innerAngles maxError).map (arc.source.rotated arc.pivot) ++
          [arc.destination] = corners := by
  by_cases h : arc.Centred
  · rw [polyline?_of_centred h, Option.some_inj, and_iff_right h]
  · rw [polyline?_eq_none_iff.mpr h]
    exact ⟨nofun, fun hcentred => absurd hcentred.1 h⟩

theorem two_le_length_polyline {arc : Arc α} {maxError : α} {corners : List (Vec2 α)}
    (h : arc.polyline? maxError = some corners) : 2 ≤ corners.length := by
  rw [← (polyline?_eq_some_iff.mp h).2, List.length_append, List.length_cons,
    List.length_singleton]
  exact Nat.succ_le_succ (Nat.le_add_left 1 _)

theorem length_cornerAngles (total step : α) :
    (cornerAngles total step).length = (firstCorner total step).2 := by
  unfold cornerAngles
  rw [List.length_map, List.length_range]

end

/-!
# Doubles
-/

theorem length_innerAngles_le (arc : Arc Float) (maxError : Float) :
    (arc.innerAngles maxError).length ≤ maxCorners := by
  unfold innerAngles
  split
  · exact Nat.zero_le maxCorners
  · rw [length_cornerAngles]
    exact Numeric.Double.ceilUpTo_le maxCorners _

theorem polyline?_cases (arc : Arc Float) (maxError : Float) :
    ¬ arc.Centred ∧ arc.polyline? maxError = none ∨
      arc.Centred ∧ ∃ corners, arc.polyline? maxError = some corners ∧
        2 ≤ corners.length ∧ corners.length ≤ maxCorners + 2 ∧
        corners.head? = some arc.source ∧ corners.getLast? = some arc.destination := by
  by_cases h : arc.Centred
  · have hpolyline := polyline?_of_centred h maxError
    refine Or.inr ⟨h, _, hpolyline, two_le_length_polyline hpolyline, ?_, rfl,
      List.getLast?_concat⟩
    have hle := length_innerAngles_le arc maxError
    simp only [List.length_append, List.length_cons, List.length_map, List.length_nil]
    omega
  · exact Or.inl ⟨h, polyline?_eq_none_iff.mpr h⟩

end Arc
end Extrusion
