import Extrusion.Failure

/-!
# Depositions

A move deposits material when it stays at its height, feeds the extruder
forward and, unless it is an arc, names a coordinate in the plane.
-/

namespace Extrusion

structure Deposition (α : Type) where
  corners : List (Vec2 α)
  height : α
  temperature : α
  feedrate : α
  deriving Repr

namespace Deposition

variable {α : Type} [Scalar α]

def extrudes (previous current : MachineState α) : Bool :=
  previous.absolutePosition.z == current.absolutePosition.z
    && decide (previous.absoluteExtruder < current.absoluteExtruder)

def arcOf (previous current : MachineState α) (move : ArcMove α) : Arc α :=
  let source := previous.absolutePosition.planar
  { source
    destination := current.absolutePosition.planar
    pivot := source + Vec2.scale ⟨move.i, move.j⟩ previous.unitLength
    rotation := move.rotation }

/-- The corners of a move that leads from one state to another; none unless it
deposits. -/
def cornersOf (maxError : α) (previous current : MachineState α) :
    Command α → Except (BuildError α) (Option (List (Vec2 α)))
  | .linear move =>
      if (move.x.isSome || move.y.isSome) && extrudes previous current then
        .ok (some [previous.absolutePosition.planar, current.absolutePosition.planar])
      else .ok none
  | .arc move =>
      if extrudes previous current then
        let arc := arcOf previous current move
        match arc.polyline? maxError with
        | some corners => .ok (some corners)
        | none => .error (.uncentredArc arc)
      else .ok none
  | _ => .ok none

def ofCommand (maxError : α) (previous current : MachineState α) (command : Command α) :
    Except (BuildError α) (Option (Deposition α)) :=
  (cornersOf maxError previous current command).map fun found =>
    found.map fun corners =>
      ⟨corners, current.absolutePosition.z, current.temperature, current.feedrate⟩

end Deposition

end Extrusion
