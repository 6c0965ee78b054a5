import Extrusion.Scalar

/-!
# Sample statistics

The extreme values and the mean of a series of samples.
-/

namespace Extrusion

structure SampleStats (α : Type) where
  min : α
  max : α
  avg : α
  deriving BEq, DecidableEq, Repr

namespace SampleStats

variable {α : Type} [Scalar α]

def ofSamples : List α → Option (SampleStats α)
  | [] => none
  | first :: rest =>
      some
        { min := rest.foldl Scalar.min first
          max := rest.foldl Scalar.max first
          avg := rest.foldl (· + ·) first / Scalar.ofNat (rest.length + 1) }

end SampleStats

end Extrusion
