import Extrusion.Command
import Extrusion.Geometry.Planar

/-!
# Arcs

An arc is replaced by the corners of a polyline whose chords stay within a
given distance of it.  Every corner in between is the source turned about the
pivot, so no error builds up along the way.
-/

namespace Extrusion

/-- An arc in the plane.  Where source and destination coincide it is a full
circle. -/
structure Arc (α : Type) where
  source : Vec2 α
  destination : Vec2 α
  pivot : Vec2 α
  rotation : Rotation
  deriving Repr

namespace Arc

variable {α : Type} [Scalar α]

def maxCorners : Nat := 65536

/-- How far apart the two radii may be, relative to the larger one. -/
def radiusTolerance : α := 0.01

def signed (rotation : Rotation) (angle : α) : α :=
  match rotation with
  | .clockwise => -angle
  | .counterclockwise => angle

/-- The turn whose chord leaves a circle by `maxError` at most, negative for
clockwise arcs.  Circles smaller than the error give a full turn. -/
def stepAngle (radius maxError : α) (rotation : Rotation) : α :=
  let cos := Scalar.clamp (-1) 1 (1 - maxError / radius)
  signed rotation (2.0 * Scalar.acos cos)

/-- The turn from source to destination: positive and at most a full turn for
counter-clockwise arcs, the negative of such an angle for clockwise ones. -/
def totalAngle (arc : Arc α) : α :=
  let angle := (arc.source - arc.pivot).signedAngle (arc.destination - arc.pivot)
  match arc.rotation with
  | .counterclockwise => if angle ≤ 0 then angle + Scalar.turn else angle
  | .clockwise => if 0 ≤ angle then angle - Scalar.turn else angle

def cornerCount (total step : α) : Nat :=
  Scalar.ceilUpTo maxCorners (total / step)

def isClose (a b tolerance : α) : Bool :=
  Scalar.abs (a - b) ≤ tolerance * Scalar.max (Scalar.abs a) (Scalar.abs b)

/-- The angle of the first corner in between, and their number.  An arc shorter
than one step starts halfway.  When the number is capped the corners spread
evenly. -/
def firstCorner (total step : α) : α × Nat :=
  let step := if Scalar.abs total < Scalar.abs step then total / 2.0 else step
  let count := cornerCount total step
  (if count = maxCorners then total / Scalar.ofNat (count + 1) else step, count)

/-- The angles of the corners in between: evenly spread from the first one on.
The next one would have the total. -/
def cornerAngles (total step : α) : List α :=
  let (first, count) := firstCorner total step
  let spacing := (total - first) / Scalar.ofNat count
  (List.range count).map fun k => first + spacing * Scalar.ofNat k

/-- The corners of the polyline, with source and destination as they are; none
where source and destination are not equally far from the pivot. -/
def polyline? (arc : Arc α) (maxError : α) : Option (List (Vec2 α)) :=
  let radius := arc.source.distance arc.pivot
  if !isClose radius (arc.destination.distance arc.pivot) radiusTolerance then none
  else if radius == 0 then some [arc.source, arc.destination]
  else
    let angles := cornerAngles arc.totalAngle (stepAngle radius maxError arc.rotation)
    some (arc.source :: angles.map (arc.source.rotated arc.pivot) ++ [arc.destination])

end Arc

end Extrusion
