import Extrusion.Geometry.Planar

/-!
# Space

Points in space, as the machine reports and the model bounds them.
-/

namespace Extrusion

structure Point3 (α : Type) where
  x : α
  y : α
  z : α
  deriving BEq, DecidableEq, Repr

namespace Point3

variable {α : Type} [Scalar α]

def origin : Point3 α := ⟨0, 0, 0⟩

instance : Add (Point3 α) := ⟨fun a b => ⟨a.x + b.x, a.y + b.y, a.z + b.z⟩⟩

instance : Sub (Point3 α) := ⟨fun a b => ⟨a.x - b.x, a.y - b.y, a.z - b.z⟩⟩

def planar (a : Point3 α) : Vec2 α := ⟨a.x, a.y⟩

def rounded (a : Point3 α) : Point3 α :=
  ⟨Scalar.toMicrometres a.x, Scalar.toMicrometres a.y, Scalar.toMicrometres a.z⟩

protected def min (a b : Point3 α) : Point3 α :=
  ⟨Scalar.min a.x b.x, Scalar.min a.y b.y, Scalar.min a.z b.z⟩

protected def max (a b : Point3 α) : Point3 α :=
  ⟨Scalar.max a.x b.x, Scalar.max a.y b.y, Scalar.max a.z b.z⟩

end Point3

end Extrusion
