import Extrusion.Numeric.Shortest

/-!
# Number texts

A number style says how a double is written: the shortest digits placed
positionally or with an exponent, or a fixed number of places or of
significant digits.  Each text that the library produces names one of the
styles below.
-/

namespace Extrusion
namespace Numeric

/-! ## Placing digits -/

def padDigits (width n : Nat) : List Char :=
  let digits := Nat.toDigits 10 n
  List.replicate (width - digits.length) '0' ++ digits

def placePoint (places n : Nat) : List Char :=
  let digits := padDigits (places + 1) n
  if places = 0 then digits
  else
    let whole := digits.length - places
    digits.take whole ++ '.' :: digits.drop whole

def positional (coefficient : Nat) (exponent : Int) : List Char :=
  if 0 ≤ exponent then Nat.toDigits 10 (coefficient * Nat.pow 10 exponent.toNat)
  else placePoint (-exponent).toNat coefficient

/-- One digit, the remaining ones after a point, and the exponent in as few
digits as it has. -/
def scientific (plus : Bool) (coefficient : Nat) (exponent : Int) : List Char :=
  let digits := Nat.toDigits 10 coefficient
  let shown := exponent + (digits.length - 1 : Nat)
  let sign := if shown < 0 then ['-'] else if plus then ['+'] else []
  placePoint (digits.length - 1) coefficient ++ 'e' :: (sign ++ Nat.toDigits 10 shown.natAbs)

def signed (negative : Bool) (magnitude : List Char) : List Char :=
  if negative then '-' :: magnitude else magnitude

/-! ## Styles for shortest digits -/

structure NumberStyle where
  tie : Tie
  /-- Whether a positive number whose order (the least `k` with the number
  below `10 ^ k`) is given is written with an exponent. -/
  exponentAt : Int → Bool
  wholePoint : Bool
  /-- Whether exponents that are not negative carry a sign. -/
  plus : Bool
  positiveInfinity : String
  negativeInfinity : String
  nan : String

namespace NumberStyle

def plain : NumberStyle where
  tie := .away
  exponentAt _ := false
  wholePoint := false
  plus := false
  positiveInfinity := "inf"
  negativeInfinity := "-inf"
  nan := "NaN"

/-- Always recognisable as a number with a fraction; exponents below `1e-4` and
from `1e16` on. -/
def explicit : NumberStyle where
  tie := .away
  exponentAt k := k < -3 ∨ 16 < k
  wholePoint := true
  plus := false
  positiveInfinity := "inf"
  negativeInfinity := "-inf"
  nan := "NaN"

/-- Numbers of a JSON text: exponents below `1e-5` and from `1e16` on, and no
text for what is not finite. -/
def json : NumberStyle where
  tie := .toEven
  exponentAt k := k < -4 ∨ 16 < k
  wholePoint := true
  plus := true
  positiveInfinity := "null"
  negativeInfinity := "null"
  nan := "null"

def magnitudeText (style : NumberStyle) (coefficient : Nat) (exponent : Int) : List Char :=
  let order := exponent + (Nat.toDigits 10 coefficient).length
  if coefficient ≠ 0 ∧ style.exponentAt order then
    scientific style.plus coefficient exponent
  else if style.wholePoint ∧ 0 ≤ exponent then
    positional coefficient exponent ++ ['.', '0']
  else positional coefficient exponent

def chars (style : NumberStyle) (x : Float) : List Char :=
  match Double.ofFloat x with
  | .finite negative significand exponent =>
      let d := Shortest.ofFinite style.tie negative significand exponent
      signed negative (style.magnitudeText d.coefficient d.exponent)
  | .infinite false => style.positiveInfinity.toList
  | .infinite true => style.negativeInfinity.toList
  | .nan => style.nan.toList

def text (style : NumberStyle) (x : Float) : String :=
  String.ofList (style.chars x)

end NumberStyle

/-! ## Rounded texts -/

/-- A quotient with `places` decimals, ties to the even digit. -/
def fixedRatio (places num den : Nat) : List Char :=
  placePoint places (roundDiv .toEven (num * Nat.pow 10 places) den)

/-- A double with `places` decimals.  The sign stays even where all digits are
zero. -/
def fixed (places : Nat) (x : Float) : String :=
  match Double.ofFloat x with
  | .finite negative significand exponent =>
      let (num, den) := Double.ratio significand exponent
      String.ofList (signed negative (fixedRatio places num den))
  | _ => NumberStyle.plain.text x

/-- A positive quotient with `places` digits after the first one and an
exponent, ties to the even digit. -/
def scientificRatio (places num den : Nat) : List Char :=
  let order := Shortest.decimalOrder num den
  let exponent := order - 1 - (places : Int)
  let (n, d) := scaleDown 10 num den exponent
  let rounded := roundDiv .toEven n d
  if rounded < Nat.pow 10 (places + 1) then scientific false rounded exponent
  else scientific false (rounded / 10) (exponent + 1)

end Numeric
end Extrusion
