import Extrusion.Numeric.Rounding

/-!
# Doubles as signed significands and exponents

A double is decoded from its bits into a sign, a significand and a binary
exponent, and encoded back.  Everything that has to be exact (reading and
writing decimals, rounding to integers) goes through this form.
-/

namespace Extrusion
namespace Numeric

/-- What a double stands for.  A finite one is
`± significand * 2 ^ exponent`. -/
inductive Double where
  | finite (negative : Bool) (significand : Nat) (exponent : Int)
  | infinite (negative : Bool)
  | nan
  deriving DecidableEq, Repr

namespace Double

def infinityBits : Nat := 2047 * Nat.pow 2 52

def ofMagnitudeBits (bits : Nat) : Nat × Int :=
  if bits < Nat.pow 2 52 then (bits, -1074)
  else (bits % Nat.pow 2 52 + Nat.pow 2 52, (bits / Nat.pow 2 52 : Nat) - 1075)

/-- The magnitude bits of a significand of at most 53 bits.  Too large a value
becomes infinity. -/
def magnitudeBits (significand : Nat) (exponent : Int) : Nat :=
  min ((exponent + 1074).toNat * Nat.pow 2 52 + significand) infinityBits

def ofBits (bits : Nat) : Double :=
  let negative := Nat.pow 2 63 ≤ bits
  let magnitude := bits % Nat.pow 2 63
  if magnitude < infinityBits then
    let (significand, exponent) := ofMagnitudeBits magnitude
    .finite negative significand exponent
  else if magnitude = infinityBits then .infinite negative
  else .nan

def ofFloat (x : Float) : Double :=
  ofBits x.toBits.toNat

def assemble (negative : Bool) (magnitude : Nat) : Float :=
  Float.ofBits (UInt64.ofNat (cond negative (Nat.pow 2 63) 0 + magnitude))

/-- The double nearest to `± num / den`, ties to even. -/
def nearest (negative : Bool) (num den : Nat) : Float :=
  let (significand, exponent) := BinaryFormat.double.round num den
  assemble negative (magnitudeBits significand exponent)

def infinity (negative : Bool) : Float :=
  assemble negative infinityBits

/-- The double `2 ^ exponent`, for an exponent from -1022 to 1023. -/
def powerOfTwo (exponent : Int) : Float :=
  assemble false ((exponent + 1023).toNat * Nat.pow 2 52)

def quietNaN : Float :=
  Float.ofBits 0x7FF8000000000000

def ratio (significand : Nat) (exponent : Int) : Nat × Nat :=
  (significand * Nat.pow 2 exponent.toNat, Nat.pow 2 (-exponent).toNat)

/-- The position of a double in the total order of bit patterns: negative ones
first, by falling magnitude, and NaN last. -/
def rank (x : Float) : Int :=
  let bits := x.toBits.toNat
  if bits < Nat.pow 2 63 then bits else -((bits - Nat.pow 2 63 : Nat) : Int) - 1

/-- The nearest integer, halves away from zero; signs of zero, infinities and
NaN stay. -/
def roundToInteger (x : Float) : Float :=
  match ofFloat x with
  | .finite negative significand exponent =>
      if 0 ≤ exponent then x
      else nearest negative (roundDiv .away significand (Nat.pow 2 (-exponent).toNat)) 1
  | _ => x

/-- The least natural number that is at least `x`, but at most `cap`; zero for
NaN. -/
def ceilUpTo (cap : Nat) (x : Float) : Nat :=
  match ofFloat x with
  | .finite true _ _ => 0
  | .finite false significand exponent =>
      let (num, den) := ratio significand exponent
      min cap ((num + den - 1) / den)
  | .infinite negative => cond negative 0 cap
  | .nan => 0

end Double

end Numeric
end Extrusion
