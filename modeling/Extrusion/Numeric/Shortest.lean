import Extrusion.Numeric.Decimal

/-!
# Shortest decimals

The decimal with the fewest digits that reads back to a given double, and
among those the one nearest to it.  For `1, 2, …, 17` digits the two
neighbours of the value on that grid are read back; the first grid with a hit
wins.  Seventeen digits always suffice; the exact decimal expansion stands in
for that argument.
-/

namespace Extrusion
namespace Numeric
namespace Shortest

/-- The exponent of the power of ten just above a positive quotient: the least
`k` with `num / den < 10 ^ k`.  The binary logarithms give an estimate that is
at most two too small. -/
def decimalOrder (num den : Nat) : Int :=
  let estimate := ((num.log2 : Int) - (den.log2 : Int) - 1) * 30103 / 100000
  let step (k : Int) : Int :=
    let (n, d) := scaleDown 10 num den k
    if n < d then k else k + 1
  step (step (step estimate))

def stripZeros (coefficient : Nat) (exponent : Int) : Nat × Int :=
  if coefficient ≠ 0 ∧ coefficient % 10 = 0 then
    stripZeros (coefficient / 10) (exponent + 1)
  else (coefficient, exponent)
termination_by coefficient
decreasing_by omega

def expand (negative : Bool) (significand : Nat) (exponent : Int) : Decimal :=
  if 0 ≤ exponent then ⟨negative, significand * Nat.pow 2 exponent.toNat, 0⟩
  else ⟨negative, significand * Nat.pow 5 (-exponent).toNat, exponent⟩

/-- The better of the two neighbours of `num / den` among the multiples of
`10 ^ exponent`, if one of them passes the test. -/
def neighbour? (tie : Tie) (accept : Decimal → Bool) (negative : Bool) (num den : Nat)
    (exponent : Int) : Option Decimal :=
  let (n, d) := scaleDown 10 num den exponent
  let below : Decimal := ⟨negative, n / d, exponent⟩
  let above : Decimal := ⟨negative, n / d + 1, exponent⟩
  let nearer : Decimal := ⟨negative, roundDiv tie n d, exponent⟩
  if accept nearer then some nearer
  else if accept below then some below
  else if accept above then some above
  else none

def ofFinite (tie : Tie) (negative : Bool) (significand : Nat) (exponent : Int) : Decimal :=
  if significand = 0 then ⟨negative, 0, 0⟩
  else
    let (num, den) := Double.ratio significand exponent
    let order := decimalOrder num den
    let bits := Double.magnitudeBits significand exponent
    let accept (d : Decimal) : Bool := d.toFloat.toBits == (Double.assemble negative bits).toBits
    let found := (List.range 17).findSome? fun k =>
      neighbour? tie accept negative num den (order - (k + 1 : Nat))
    let best := found.getD (expand negative significand exponent)
    let (coefficient, exponent) := stripZeros best.coefficient best.exponent
    ⟨negative, coefficient, exponent⟩

end Shortest
end Numeric
end Extrusion
