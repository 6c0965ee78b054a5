import Extrusion.Scalar

/-!
# The plane

Points and vectors in the plane, their lengths, rotations and angles.
-/

namespace Extrusion

/-- A point or a vector in the plane, in millimetres. -/
structure Vec2 (α : Type) where
  x : α
  y : α
  deriving BEq, DecidableEq, Repr

namespace Vec2

variable {α : Type} [Scalar α]

protected def zero : Vec2 α := ⟨0, 0⟩

instance : Zero (Vec2 α) := ⟨Vec2.zero⟩

instance : Add (Vec2 α) := ⟨fun a b => ⟨a.x + b.x, a.y + b.y⟩⟩

instance : Sub (Vec2 α) := ⟨fun a b => ⟨a.x - b.x, a.y - b.y⟩⟩

def scale (a : Vec2 α) (factor : α) : Vec2 α :=
  ⟨a.x * factor, a.y * factor⟩

def length (a : Vec2 α) : α :=
  Scalar.hypot a.x a.y

def distance (a b : Vec2 α) : α :=
  (a - b).length

def dot (a b : Vec2 α) : α :=
  a.x * b.x + a.y * b.y

/-- Positive where `b` lies counter-clockwise of `a`. -/
def determinant (a b : Vec2 α) : α :=
  a.x * b.y - a.y * b.x

/-- The vector of length one in the same direction; zero stays zero. -/
def normalized (a : Vec2 α) : Vec2 α :=
  let length := a.length
  if length == 0 then 0 else ⟨a.x / length, a.y / length⟩

/-- The point turned about `pivot`, counter-clockwise for a positive angle. -/
def rotated (a pivot : Vec2 α) (angle : α) : Vec2 α :=
  let sin := Scalar.sin angle
  let cos := Scalar.cos angle
  let arm := a - pivot
  ⟨arm.x * cos - arm.y * sin + pivot.x, arm.x * sin + arm.y * cos + pivot.y⟩

protected def min (a b : Vec2 α) : Vec2 α :=
  ⟨Scalar.min a.x b.x, Scalar.min a.y b.y⟩

protected def max (a b : Vec2 α) : Vec2 α :=
  ⟨Scalar.max a.x b.x, Scalar.max a.y b.y⟩

/-- The angle between two vectors, from zero to half a turn. -/
def innerAngle (a b : Vec2 α) : α :=
  Scalar.acos (Scalar.clamp (-1) 1 (a.normalized.dot b.normalized))

/-- The angle from `a` to `b`, negative where `b` lies clockwise of `a`. -/
def signedAngle (a b : Vec2 α) : α :=
  let inner := a.innerAngle b
  if a.determinant b < 0 then -inner else inner

end Vec2

end Extrusion
