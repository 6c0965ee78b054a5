/-!
# Rounding of quotients

Nearest integers to a quotient of naturals, and nearest values of a binary
format with a bounded precision and a smallest exponent.  All arithmetic is on
naturals, so every result is exact up to the one rounding that is asked for.
-/

namespace Extrusion
namespace Numeric

inductive Tie where
  | toEven
  | away
  deriving DecidableEq, Repr

def roundDiv (tie : Tie) (num den : Nat) : Nat :=
  let below := num / den
  let rest := num % den
  if 2 * rest < den then below
  else if den < 2 * rest then below + 1
  else match tie with
    | .toEven => below + below % 2
    | .away => below + 1

def scaleDown (base num den : Nat) (exponent : Int) : Nat × Nat :=
  (num * Nat.pow base (-exponent).toNat, den * Nat.pow base exponent.toNat)

/-- A binary format: significands have at most `precision` bits, and
exponents start at `minExponent`. -/
structure BinaryFormat where
  precision : Nat
  minExponent : Int
  deriving DecidableEq, Repr

namespace BinaryFormat

def double : BinaryFormat := ⟨53, -1074⟩

def single : BinaryFormat := ⟨24, -149⟩

/-- The exponent at which `num / den` has a significand of full precision, or
the smallest one. -/
def exponentFor (format : BinaryFormat) (num den : Nat) : Int :=
  let guess := max format.minExponent
    ((num.log2 : Int) - (den.log2 : Int) - (format.precision : Int))
  let (n, d) := scaleDown 2 num den guess
  if n < d * Nat.pow 2 format.precision then guess else guess + 1

/-- The significand and the exponent of the value nearest to `num / den`, ties
to the even significand.  Exponents have no upper end here. -/
def round (format : BinaryFormat) (num den : Nat) : Nat × Int :=
  if num = 0 then (0, format.minExponent)
  else
    let exponent := format.exponentFor num den
    let (n, d) := scaleDown 2 num den exponent
    (roundDiv .toEven n d, exponent)

end BinaryFormat

end Numeric
end Extrusion
