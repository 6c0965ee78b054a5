import Extrusion.Numeric.Hypotenuse

/-!
# Scalars

Geometry, machine states and layers are stated over any type with the
operations of a coordinate.  The program runs on doubles.  Statements about
exact arithmetic are about the same definitions over the real numbers.
-/

namespace Extrusion

/-- The operations on coordinates, angles, temperatures and feed rates.

No law is part of the class: `==` need not be reflexive, and neither order need
be total. -/
class Scalar (α : Type) extends
    Zero α, One α, Add α, Sub α, Neg α, Mul α, Div α, OfScientific α,
    BEq α, LT α, LE α where
  decidableLT : DecidableLT α
  decidableLE : DecidableLE α
  ofNat : Nat → α
  /-- A total order that also places what `<` leaves incomparable. -/
  order : α → α → Ordering
  /-- The nearest integer, halves away from zero. -/
  round : α → α
  /-- The least natural number not below a scalar, but at most the first
  argument. -/
  ceilUpTo : Nat → α → Nat
  hypot : α → α → α
  sin : α → α
  cos : α → α
  acos : α → α
  /-- A full turn in radians. -/
  turn : α

instance instDecidableLTScalar {α : Type} [Scalar α] : DecidableLT α := Scalar.decidableLT

instance instDecidableLEScalar {α : Type} [Scalar α] : DecidableLE α := Scalar.decidableLE

namespace Scalar

variable {α : Type} [Scalar α]

/-- The smaller of two scalars.  One that differs from itself loses against any
other. -/
protected def min (a b : α) : α :=
  if b < a then b else if a == a then a else b

protected def max (a b : α) : α :=
  if a < b then b else if a == a then a else b

protected def abs (a : α) : α :=
  if a < 0 then -a else a

def clamp (low high a : α) : α :=
  if a < low then low else if high < a then high else a

/-- Three decimal places: lengths in millimetres to whole micrometres. -/
def toMicrometres (a : α) : α :=
  round (a * 1000.0) / 1000.0

end Scalar

instance : Scalar Float where
  zero := 0
  one := 1
  decidableLT := inferInstance
  decidableLE := inferInstance
  ofNat := Float.ofNat
  order a b := compare (Numeric.Double.rank a) (Numeric.Double.rank b)
  round := Numeric.Double.roundToInteger
  ceilUpTo := Numeric.Double.ceilUpTo
  hypot := Numeric.hypot
  sin := Float.sin
  cos := Float.cos
  acos := Float.acos
  turn := 6.283185307179586

end Extrusion
