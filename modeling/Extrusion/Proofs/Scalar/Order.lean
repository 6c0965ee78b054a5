import Extrusion.Proofs.Numeric.Order

/-!
# Order of scalars

What the layers of a print need from the comparisons of scalars: numbers are
the scalars that equal themselves, they are comparable with each other, and
adding zero gives equal numbers one spelling, by which the total order agrees
with the comparisons.  Doubles have all of it.  Models are sorted by the total
order itself.
-/

namespace Extrusion
namespace Scalar

def IsNumber {α : Type} [Scalar α] (a : α) : Prop := (a == a) = true

/-- The comparisons of numbers agree with the total order after adding zero. -/
class LawfulOrder (α : Type) [Scalar α] : Prop where
  order_eq_iff {a b : α} : order a b = .eq ↔ a = b
  order_swap (a b : α) : (order a b).swap = order b a
  order_trans {a b c : α} : order a b = .lt → order b c = .lt → order a c = .lt
  isNumber_add_zero {a : α} : IsNumber (a + 0) ↔ IsNumber a
  add_zero_add_zero (a : α) : a + 0 + 0 = a + 0
  lt_iff {a b : α} : a < b ↔ IsNumber a ∧ IsNumber b ∧ order (a + 0) (b + 0) = .lt
  beq_iff {a b : α} : (a == b) = true ↔ IsNumber a ∧ IsNumber b ∧ a + 0 = b + 0

variable {α : Type} [Scalar α] [LawfulOrder α] {a b c : α}

open LawfulOrder

/-!
# Numbers up to the spelling of zero
-/

theorem IsNumber.add_zero (h : IsNumber a) : IsNumber (a + 0) :=
  isNumber_add_zero.mpr h

theorem beq_symm (h : (a == b) = true) : (b == a) = true := by
  rcases LawfulOrder.beq_iff.mp h with ⟨ha, hb, heq⟩
  exact LawfulOrder.beq_iff.mpr ⟨hb, ha, heq.symm⟩

theorem beq_trans (hab : (a == b) = true) (hbc : (b == c) = true) : (a == c) = true := by
  rcases LawfulOrder.beq_iff.mp hab with ⟨ha, _, hab'⟩
  rcases LawfulOrder.beq_iff.mp hbc with ⟨_, hc, hbc'⟩
  exact LawfulOrder.beq_iff.mpr ⟨ha, hc, hab'.trans hbc'⟩

theorem add_zero_beq (h : IsNumber a) : (a + 0 == a) = true :=
  LawfulOrder.beq_iff.mpr ⟨h.add_zero, h, add_zero_add_zero a⟩

theorem isNumber_right_of_beq (h : (a == b) = true) : IsNumber b :=
  (LawfulOrder.beq_iff.mp h).2.1

/-!
# Order
-/

theorem isNumber_right_of_lt (h : a < b) : IsNumber b :=
  (LawfulOrder.lt_iff.mp h).2.1

theorem add_zero_lt_add_zero_iff : a + 0 < b + 0 ↔ a < b := by
  rw [LawfulOrder.lt_iff, LawfulOrder.lt_iff, isNumber_add_zero, isNumber_add_zero,
    add_zero_add_zero, add_zero_add_zero]

theorem lt_add_zero_iff : a < b + 0 ↔ a < b := by
  rw [← add_zero_lt_add_zero_iff, add_zero_add_zero, add_zero_lt_add_zero_iff]

theorem add_zero_lt_iff : a + 0 < b ↔ a < b := by
  rw [← add_zero_lt_add_zero_iff, add_zero_add_zero, add_zero_lt_add_zero_iff]

theorem order_self (a : α) : order a a = .eq :=
  order_eq_iff.mpr rfl

theorem lt_irrefl (a : α) : ¬ a < a := by
  intro h
  have horder := (LawfulOrder.lt_iff.mp h).2.2
  rw [order_self] at horder
  cases horder

theorem lt_trans (hab : a < b) (hbc : b < c) : a < c := by
  rcases LawfulOrder.lt_iff.mp hab with ⟨ha, _, hab'⟩
  rcases LawfulOrder.lt_iff.mp hbc with ⟨_, hc, hbc'⟩
  exact LawfulOrder.lt_iff.mpr ⟨ha, hc, order_trans hab' hbc'⟩

theorem lt_asymm (h : a < b) : ¬ b < a := by
  intro h'
  exact lt_irrefl a (lt_trans h h')

theorem not_beq_of_lt (h : a < b) : (a == b) = false := by
  rw [Bool.eq_false_iff]
  intro hbeq
  have heq := (LawfulOrder.beq_iff.mp hbeq).2.2
  rw [← add_zero_lt_add_zero_iff, heq] at h
  exact lt_irrefl _ h

theorem not_beq_of_gt (h : b < a) : (a == b) = false := by
  rw [Bool.eq_false_iff]
  intro hbeq
  exact Bool.eq_false_iff.mp (not_beq_of_lt h) (beq_symm hbeq)

theorem lt_or_beq_or_gt (ha : IsNumber a) (hb : IsNumber b) :
    a < b ∨ (a == b) = true ∨ b < a := by
  cases horder : order (a + 0) (b + 0) with
  | lt => exact Or.inl (LawfulOrder.lt_iff.mpr ⟨ha, hb, horder⟩)
  | eq => exact Or.inr (Or.inl (LawfulOrder.beq_iff.mpr ⟨ha, hb, order_eq_iff.mp horder⟩))
  | gt =>
      have hswap := order_swap (a + 0) (b + 0)
      rw [horder] at hswap
      exact Or.inr (Or.inr (LawfulOrder.lt_iff.mpr ⟨hb, ha, hswap.symm⟩))

/-!
# The total order
-/

theorem order_trans_of_ne_gt (hab : order a b ≠ .gt) (hbc : order b c ≠ .gt) :
    order a c ≠ .gt := by
  cases hab' : order a b with
  | gt => exact absurd hab' hab
  | eq =>
      rw [LawfulOrder.order_eq_iff.mp hab']
      exact hbc
  | lt =>
      cases hbc' : order b c with
      | gt => exact absurd hbc' hbc
      | eq =>
          rw [← LawfulOrder.order_eq_iff.mp hbc', hab']
          exact Ordering.noConfusion
      | lt =>
          rw [LawfulOrder.order_trans hab' hbc']
          exact Ordering.noConfusion

theorem order_ne_gt_total (a b : α) : order a b ≠ .gt ∨ order b a ≠ .gt := by
  rw [← LawfulOrder.order_swap a b]
  cases order a b with
  | lt => exact Or.inl Ordering.noConfusion
  | eq => exact Or.inl Ordering.noConfusion
  | gt => exact Or.inr Ordering.noConfusion

theorem eq_of_order_ne_gt (hab : order a b ≠ .gt) (hba : order b a ≠ .gt) : a = b := by
  rw [← LawfulOrder.order_swap a b] at hba
  apply LawfulOrder.order_eq_iff.mp
  cases horder : order a b with
  | lt =>
      rw [horder] at hba
      exact absurd rfl hba
  | eq => rfl
  | gt => exact absurd horder hab

/-!
# Doubles
-/

theorem isNumber_float_iff {x : Float} : IsNumber x ↔ Numeric.Double.IsNumber x := by
  show (x == x) = true ↔ _
  rw [Numeric.Double.beq_iff]
  simp

theorem isNumber_zero_float : IsNumber (0 : Float) := by
  show ((0 : Float) == 0) = true
  decide +kernel

instance : LawfulOrder Float where
  order_eq_iff := by
    intro a b
    show compare (Numeric.Double.rank a) (Numeric.Double.rank b) = .eq ↔ _
    rw [Int.compare_eq_eq]
    exact ⟨Numeric.Double.rank_injective, fun h => h ▸ rfl⟩
  order_swap := by
    intro a b
    exact Int.compare_swap _ _
  order_trans := by
    intro a b c hab hbc
    have hab' := Int.compare_eq_lt.mp hab
    have hbc' := Int.compare_eq_lt.mp hbc
    exact Int.compare_eq_lt.mpr (Int.lt_trans hab' hbc')
  isNumber_add_zero := by
    intro a
    rw [isNumber_float_iff, isNumber_float_iff]
    exact Numeric.Double.isNumber_add_zero
  add_zero_add_zero := Numeric.Double.add_zero_add_zero
  lt_iff := by
    intro a b
    rw [isNumber_float_iff, isNumber_float_iff]
    refine (Numeric.Double.lt_iff a b).trans ?_
    rw [← Numeric.Double.rank_add_zero_lt_iff, ← Int.compare_eq_lt]
    rfl
  beq_iff := by
    intro a b
    rw [isNumber_float_iff, isNumber_float_iff]
    refine (Numeric.Double.beq_iff a b).trans ?_
    rw [← Numeric.Double.add_zero_eq_iff]

theorem order_of_lt {x y : Float} (h : x < y) : order x y = .lt :=
  Int.compare_eq_lt.mpr (Numeric.Double.rank_lt_rank_of_lt h)

end Scalar
end Extrusion
