import Extrusion.Geometry.Planar

/-!
# Paths

A path is the polyline that the nozzle traces while it deposits material.  It
has two points at least.
-/

namespace Extrusion

structure Path (α : Type) where
  points : Array (Vec2 α)
  two_le_size : 2 ≤ points.size

namespace Path

variable {α : Type}

def new (first second : Vec2 α) : Path α :=
  ⟨#[first, second], by simp⟩

def first (path : Path α) : Vec2 α :=
  have := path.two_le_size
  path.points[0]

def last (path : Path α) : Vec2 α :=
  have := path.two_le_size
  path.points[path.points.size - 1]

def size (path : Path α) : Nat :=
  path.points.size

def push (path : Path α) (point : Vec2 α) : Path α :=
  ⟨path.points.push point, by
    have := path.two_le_size
    simp
    omega⟩

variable [Scalar α]

/-- The point `tip` moved by `length` away from `neighbour`.  It stays where
both coincide. -/
def outward (tip neighbour : Vec2 α) (length : α) : Vec2 α :=
  tip + (tip - neighbour).normalized.scale length

/-- Both ends moved outward by `length`, the first one first.  The points in
between stay. -/
def padded (path : Path α) (length : α) : Path α :=
  let points := path.points
  let n := points.size
  have two_le : 2 ≤ n := path.two_le_size
  let start := outward points[0] points[1] length
  let points := points.set 0 start
  have size_eq : points.size = n := by simp [points, n]
  let tip := outward points[n - 1] points[n - 2] length
  ⟨points.set (n - 1) tip, by simp [size_eq, two_le]⟩

end Path

end Extrusion
