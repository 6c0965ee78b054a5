import Extrusion.Geometry.Spatial

/-!
# Bounding boxes

Axis-aligned boxes in the plane and in space, given by their extreme corners.
-/

namespace Extrusion

structure Box2 (α : Type) where
  min : Vec2 α
  max : Vec2 α
  deriving BEq, DecidableEq, Repr

namespace Box2

variable {α : Type} [Scalar α]

def ofPoints : List (Vec2 α) → Option (Box2 α)
  | [] => none
  | first :: rest =>
      some (rest.foldl (fun box p => ⟨box.min.min p, box.max.max p⟩) ⟨first, first⟩)

def merged (a b : Box2 α) : Box2 α :=
  ⟨a.min.min b.min, a.max.max b.max⟩

def size (a : Box2 α) : Vec2 α :=
  a.max - a.min

def center (a : Box2 α) : Vec2 α :=
  (a.min + a.max).scale 0.5

end Box2

structure Box3 (α : Type) where
  min : Point3 α
  max : Point3 α
  deriving BEq, DecidableEq, Repr

namespace Box3

variable {α : Type} [Scalar α]

protected def zero : Box3 α := ⟨Point3.origin, Point3.origin⟩

instance : Zero (Box3 α) := ⟨Box3.zero⟩

def ofPlanar (base : Box2 α) (low high : α) : Box3 α :=
  ⟨⟨base.min.x, base.min.y, low⟩, ⟨base.max.x, base.max.y, high⟩⟩

def merged (a b : Box3 α) : Box3 α :=
  ⟨a.min.min b.min, a.max.max b.max⟩

def size (a : Box3 α) : Point3 α :=
  a.max - a.min

def center (a : Box3 α) : Point3 α :=
  ⟨(a.min.x + a.max.x) / 2.0, (a.min.y + a.max.y) / 2.0, (a.min.z + a.max.z) / 2.0⟩

end Box3

end Extrusion
