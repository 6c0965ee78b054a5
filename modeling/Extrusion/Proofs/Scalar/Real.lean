import Extrusion.Proofs.Scalar.Bounds
import Mathlib

/-!
# The real numbers as scalars

Exact arithmetic: the operations on scalars are those of the real numbers, the
angle of a cosine is the arc cosine, and a full turn is `2 * π`.  Nothing is
rounded and every scalar equals itself.
-/

namespace Extrusion
namespace Scalar

/-- The nearest integer, halves away from zero. -/
noncomputable def nearestInteger (a : ℝ) : ℝ :=
  if 0 ≤ a then ⌊a + 1 / 2⌋ else ⌈a - 1 / 2⌉

/-- Division of real numbers, which would otherwise be found through `Scalar` as well. -/
noncomputable instance instDivReal : Div ℝ := DivInvMonoid.toDiv

/-- Decimal fractions of real numbers, likewise. -/
noncomputable instance instOfScientificReal : OfScientific ℝ := NNRatCast.toOfScientific

noncomputable instance instScalarReal : Scalar ℝ where
  zero := 0
  one := 1
  beq a b := decide (a = b)
  decidableLT := inferInstance
  decidableLE := inferInstance
  ofNat n := n
  order := compare
  round := nearestInteger
  ceilUpTo cap a := min cap ⌈a⌉₊
  hypot a b := √(a * a + b * b)
  sin := Real.sin
  cos := Real.cos
  acos := Real.arccos
  turn := 2 * Real.pi

theorem beq_real_iff {a b : ℝ} : (a == b) = true ↔ a = b :=
  decide_eq_true_iff

theorem abs_real (a : ℝ) : Scalar.abs a = |a| := by
  unfold Scalar.abs
  split
  · exact (abs_of_neg ‹_›).symm
  · exact (abs_of_nonneg (not_lt.mp ‹_›)).symm

theorem max_real (a b : ℝ) : Scalar.max a b = max a b := by
  unfold Scalar.max
  split
  · rename_i hlt
    exact (max_eq_right hlt.le).symm
  · rename_i hnot
    rw [if_pos (beq_real_iff.mpr rfl)]
    exact (max_eq_left (not_lt.mp hnot)).symm

theorem clamp_real {low high : ℝ} (h : low ≤ high) (a : ℝ) :
    clamp low high a = max low (min high a) := by
  unfold clamp
  split
  · rename_i hlow
    rw [min_eq_right (hlow.le.trans h), max_eq_left hlow.le]
  · rename_i hlow
    split
    · rename_i hhigh
      rw [min_eq_left hhigh.le, max_eq_right h]
    · rename_i hhigh
      rw [min_eq_right (not_lt.mp hhigh), max_eq_right (not_lt.mp hlow)]

/-!
# Order

Every real number equals itself, and adding zero changes none.
-/

theorem isNumber_real (a : ℝ) : IsNumber a :=
  beq_real_iff.mpr rfl

theorem lt_real_iff {a b : ℝ} : a < b ↔ order a b = .lt :=
  compare_lt_iff_lt.symm

theorem add_zero_real (a : ℝ) : a + 0 = a :=
  add_zero a

instance instLawfulBoundsReal : LawfulBounds ℝ where
  order_eq_iff := compare_eq_iff_eq
  order_swap := by
    intro a b
    show (compare a b).swap = compare b a
    exact Std.OrientedCmp.eq_swap.symm
  order_trans hab hbc := lt_real_iff.mp ((lt_real_iff.mpr hab).trans (lt_real_iff.mpr hbc))
  isNumber_add_zero := by
    intro a
    rw [add_zero_real]
  add_zero_add_zero a := add_zero_real (a + 0)
  lt_iff := by
    intro a b
    rw [add_zero_real, add_zero_real, lt_real_iff]
    exact ⟨fun h => ⟨isNumber_real a, isNumber_real b, h⟩, fun h => h.2.2⟩
  beq_iff := by
    intro a b
    rw [add_zero_real, add_zero_real, beq_real_iff]
    exact ⟨fun h => ⟨isNumber_real a, isNumber_real b, h⟩, fun h => h.2.2⟩
  le_iff := by
    intro a b
    rw [beq_real_iff]
    exact le_iff_lt_or_eq

theorem Spans.isLeast {low high : ℝ} {xs : List ℝ} (h : Spans low high xs) :
    IsLeast { x | x ∈ xs } low :=
  ⟨h.low_mem, fun x hx => (h.between x hx (isNumber_real x)).1⟩

theorem Spans.isGreatest {low high : ℝ} {xs : List ℝ} (h : Spans low high xs) :
    IsGreatest { x | x ∈ xs } high :=
  ⟨h.high_mem, fun x hx => (h.between x hx (isNumber_real x)).2⟩

end Scalar
end Extrusion
