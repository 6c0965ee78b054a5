import Extrusion.Numeric.Double
import Extrusion.Text

/-!
# Decimal numerals

The grammar of the numerals that settings and command fields are written with,
and the double nearest to what a numeral denotes.  A numeral is an optional
sign and then either digits with an optional point and an optional exponent,
or the word for infinity or for NaN in any letter case.
-/

namespace Extrusion
namespace Numeric

/-- The number `± coefficient * 10 ^ exponent`. -/
structure Decimal where
  negative : Bool
  coefficient : Nat
  exponent : Int
  deriving DecidableEq, Repr

namespace Decimal

def ratio (d : Decimal) : Nat × Nat :=
  (d.coefficient * Nat.pow 10 d.exponent.toNat, Nat.pow 10 (-d.exponent).toNat)

/-- The exponent of the power of ten just above a positive decimal. -/
def order (d : Decimal) : Int :=
  (Nat.toDigits 10 d.coefficient).length + d.exponent

/-- The nearest double.  Decimals from `10 ^ 400` on are above every finite
double, and those below `10 ^ -400` are nearer to zero than to any other, so
neither needs its power of ten. -/
def toFloat (d : Decimal) : Float :=
  if d.coefficient = 0 ∨ d.order < -400 then Double.assemble d.negative 0
  else if 400 < d.order then Double.infinity d.negative
  else
    let (num, den) := d.ratio
    Double.nearest d.negative num den

def splitSign : List Char → Bool × List Char
  | '-' :: cs => (true, cs)
  | '+' :: cs => (false, cs)
  | cs => (false, cs)

def splitFraction : List Char → List Char × List Char
  | '.' :: cs => Text.splitDigits cs
  | cs => ([], cs)

/-- An exponent part that runs to the end; the empty one is zero. -/
def exponent? : List Char → Option Int
  | [] => some 0
  | c :: cs =>
      if c = 'e' ∨ c = 'E' then
        let (negative, digits) := splitSign cs
        if digits.isEmpty || !digits.all Char.isDigit then none
        else some (if negative then -(Text.ofDigits digits : Int) else Text.ofDigits digits)
      else none

def ofUnsigned? (negative : Bool) (cs : List Char) : Option Decimal :=
  let (whole, rest) := Text.splitDigits cs
  let (fraction, rest) := splitFraction rest
  if whole.isEmpty && fraction.isEmpty then none
  else (exponent? rest).map fun e =>
    ⟨negative, Text.ofDigits (whole ++ fraction), e - fraction.length⟩

end Decimal

inductive Numeral where
  | decimal (d : Decimal)
  | infinity (negative : Bool)
  | nan
  deriving DecidableEq, Repr

namespace Numeral

def ofChars? (cs : List Char) : Option Numeral :=
  let (negative, body) := Decimal.splitSign cs
  match Decimal.ofUnsigned? negative body with
  | some d => some (.decimal d)
  | none =>
      let word := String.ofList (body.map Char.toLower)
      if word = "inf" ∨ word = "infinity" then some (.infinity negative)
      else if word = "nan" then some .nan
      else none

def toFloat : Numeral → Float
  | .decimal d => d.toFloat
  | .infinity negative => Double.infinity negative
  | .nan => Double.quietNaN

end Numeral

def readFloat? (text : String) : Option Float :=
  (Numeral.ofChars? text.toList).map Numeral.toFloat

end Numeric
end Extrusion
