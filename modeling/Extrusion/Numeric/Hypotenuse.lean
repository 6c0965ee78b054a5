import Extrusion.Numeric.Double

/-!
# The length of a pair of doubles

The root of a sum of two squares, computed in doubles.  The rounded root of the
rounded sum is corrected once by its own error, and legs of extreme size are
scaled by a power of two first.  The result is within one unit in the last
place; it is not always the nearest double.
-/

namespace Extrusion
namespace Numeric
namespace Hypotenuse

/-- How far `root * root` exceeds `a * a + b * b`, for legs `b ≤ a` and a root
of about the right size.  Either form multiplies out to that difference; each
is used where its terms are small. -/
def excess (root a b : Float) : Float :=
  if root ≤ 2 * b then
    let d := root - b
    a * (2 * d - a) + (d - 2 * (a - b)) * d
  else
    let d := root - a
    2 * d * (a - 2 * b) + ((4 * d - b) * b + d * d)

/-- The length for legs whose squares are of normal size. -/
def corrected (a b : Float) : Float :=
  let root := (a * a + b * b).sqrt
  root - excess root a b / (2 * root)

/-- The factor that brings the squares of both legs to normal size. -/
def scaleFor (a b : Float) : Float :=
  if Double.powerOfTwo 511 < a then Double.powerOfTwo (-600)
  else if b < Double.powerOfTwo (-459) then Double.powerOfTwo 600
  else 1

/-- The length for legs `0 ≤ b ≤ a`.  A shorter leg too small to matter is
added to the other. -/
def ofLegs (a b : Float) : Float :=
  if b * Double.powerOfTwo 54 ≤ a then a + b
  else
    let scale := scaleFor a b
    corrected (a * scale) (b * scale) / scale

end Hypotenuse

/-- The length of the vector with two given coordinates.  An infinite one wins
over NaN. -/
def hypot (x y : Float) : Float :=
  if x.isInf || y.isInf then Double.infinity false
  else if x.isNaN || y.isNaN then Double.quietNaN
  else if x.abs < y.abs then Hypotenuse.ofLegs y.abs x.abs
  else Hypotenuse.ofLegs x.abs y.abs

end Numeric
end Extrusion
