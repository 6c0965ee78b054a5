import Extrusion.Proofs.Scalar.Order

/-!
# Bounds of scalars

The order of numbers is the strict one up to equality, and the smaller and the
larger of two scalars bound each of them that is a number.
-/

namespace Extrusion
namespace Scalar

/-- Numbers are at most as large as those that they are below or equal to. -/
class LawfulBounds (α : Type) [Scalar α] : Prop extends LawfulOrder α where
  le_iff {a b : α} : a ≤ b ↔ a < b ∨ (a == b) = true

theorem min_cases {α : Type} [Scalar α] (a b : α) : Scalar.min a b = a ∨ Scalar.min a b = b := by
  unfold Scalar.min
  split
  · exact Or.inr rfl
  · split
    · exact Or.inl rfl
    · exact Or.inr rfl

theorem max_cases {α : Type} [Scalar α] (a b : α) : Scalar.max a b = a ∨ Scalar.max a b = b := by
  unfold Scalar.max
  split
  · exact Or.inr rfl
  · split
    · exact Or.inl rfl
    · exact Or.inr rfl

section

variable {α : Type} [Scalar α] [LawfulBounds α] {a b c : α}

open LawfulBounds

theorem le_of_lt (h : a < b) : a ≤ b :=
  le_iff.mpr (Or.inl h)

theorem IsNumber.le_refl (h : IsNumber a) : a ≤ a :=
  le_iff.mpr (Or.inr h)

theorem isNumber_left_of_le (h : a ≤ b) : IsNumber a := by
  rcases le_iff.mp h with hlt | heq
  · exact (LawfulOrder.lt_iff.mp hlt).1
  · exact (LawfulOrder.beq_iff.mp heq).1

theorem isNumber_right_of_le (h : a ≤ b) : IsNumber b := by
  rcases le_iff.mp h with hlt | heq
  · exact isNumber_right_of_lt hlt
  · exact isNumber_right_of_beq heq

theorem lt_of_lt_of_beq (hab : a < b) (hbc : (b == c) = true) : a < c := by
  rw [← lt_add_zero_iff] at hab ⊢
  rw [← (LawfulOrder.beq_iff.mp hbc).2.2]
  exact hab

theorem lt_of_beq_of_lt (hab : (a == b) = true) (hbc : b < c) : a < c := by
  rw [← add_zero_lt_iff] at hbc ⊢
  rw [(LawfulOrder.beq_iff.mp hab).2.2]
  exact hbc

theorem le_trans (hab : a ≤ b) (hbc : b ≤ c) : a ≤ c := by
  rcases le_iff.mp hab with hab | hab
  · rcases le_iff.mp hbc with hbc | hbc
    · exact le_of_lt (lt_trans hab hbc)
    · exact le_of_lt (lt_of_lt_of_beq hab hbc)
  · rcases le_iff.mp hbc with hbc | hbc
    · exact le_of_lt (lt_of_beq_of_lt hab hbc)
    · exact le_iff.mpr (Or.inr (beq_trans hab hbc))

theorem not_lt_of_le (h : a ≤ b) : ¬ b < a := by
  intro hlt
  rcases le_iff.mp h with hab | hab
  · exact lt_asymm hab hlt
  · exact lt_irrefl b (lt_of_lt_of_beq hlt hab)

theorem le_of_not_lt (ha : IsNumber a) (hb : IsNumber b) (h : ¬ b < a) : a ≤ b := by
  rcases lt_or_beq_or_gt ha hb with hab | hab | hab
  · exact le_of_lt hab
  · exact le_iff.mpr (Or.inr hab)
  · exact absurd hab h

/-!
# The smaller and the larger one
-/

theorem min_le_left (b : α) (ha : IsNumber a) : Scalar.min a b ≤ a := by
  have hself : (a == a) = true := ha
  unfold Scalar.min
  split
  · exact le_of_lt ‹_›
  · exact ha.le_refl

theorem min_le_right (a : α) (hb : IsNumber b) : Scalar.min a b ≤ b := by
  unfold Scalar.min
  split
  · exact hb.le_refl
  · split
    · exact le_of_not_lt ‹_› hb ‹_›
    · exact hb.le_refl

theorem left_le_max (b : α) (ha : IsNumber a) : a ≤ Scalar.max a b := by
  have hself : (a == a) = true := ha
  unfold Scalar.max
  split
  · exact le_of_lt ‹_›
  · exact ha.le_refl

theorem right_le_max (a : α) (hb : IsNumber b) : b ≤ Scalar.max a b := by
  unfold Scalar.max
  split
  · exact hb.le_refl
  · split
    · exact le_of_not_lt hb ‹_› ‹_›
    · exact hb.le_refl

/-!
# Between two bounds
-/

/-- A scalar lies between two bounds, if it is a number at all. -/
def Between (low high a : α) : Prop :=
  IsNumber a → low ≤ a ∧ a ≤ high

theorem between_self (a : α) : Between a a a :=
  fun ha => ⟨ha.le_refl, ha.le_refl⟩

theorem Between.widen_left {low high : α} (h : Between low high a) (b c : α) :
    Between (Scalar.min low b) (Scalar.max high c) a := by
  intro ha
  rcases h ha with ⟨hlow, hhigh⟩
  exact ⟨le_trans (min_le_left b (isNumber_left_of_le hlow)) hlow,
    le_trans hhigh (left_le_max c (isNumber_right_of_le hhigh))⟩

theorem Between.widen_right {low high : α} (h : Between low high a) (b c : α) :
    Between (Scalar.min b low) (Scalar.max c high) a := by
  intro ha
  rcases h ha with ⟨hlow, hhigh⟩
  exact ⟨le_trans (min_le_right b (isNumber_left_of_le hlow)) hlow,
    le_trans hhigh (right_le_max c (isNumber_right_of_le hhigh))⟩

/-!
# The extreme ones of some scalars
-/

/-- Two of some scalars are extreme: all that are numbers lie between them. -/
structure Spans (low high : α) (xs : List α) : Prop where
  between : ∀ x ∈ xs, Between low high x
  low_mem : low ∈ xs
  high_mem : high ∈ xs

theorem spans_singleton (a : α) : Spans a a [a] where
  between := by
    intro x hx
    rw [List.mem_singleton.mp hx]
    exact between_self a
  low_mem := List.mem_singleton_self a
  high_mem := List.mem_singleton_self a

theorem Spans.append {low high low' high' : α} {xs ys : List α} (hx : Spans low high xs)
    (hy : Spans low' high' ys) :
    Spans (Scalar.min low low') (Scalar.max high high') (xs ++ ys) where
  between := by
    intro x hmem
    rcases List.mem_append.mp hmem with hmem | hmem
    · exact (hx.between x hmem).widen_left low' high'
    · exact (hy.between x hmem).widen_right low high
  low_mem := by
    rcases min_cases low low' with heq | heq
    · rw [heq]
      exact List.mem_append_left ys hx.low_mem
    · rw [heq]
      exact List.mem_append_right xs hy.low_mem
  high_mem := by
    rcases max_cases high high' with heq | heq
    · rw [heq]
      exact List.mem_append_left ys hx.high_mem
    · rw [heq]
      exact List.mem_append_right xs hy.high_mem

end

/-!
# Doubles
-/

theorem float_le_iff {x y : Float} : x ≤ y ↔ x < y ∨ (x == y) = true := by
  rw [Numeric.Double.le_iff_compare, Numeric.Double.lt_iff_compare,
    Numeric.Double.beq_iff_compare]
  cases x.toModel.unpack.compare y.toModel.unpack with
  | none => simp
  | some o => cases o <;> simp

instance : LawfulBounds Float where
  le_iff := float_le_iff

/-- On numbers the total order only puts one zero before the other. -/
theorem le_of_order_ne_gt {x y : Float} (hx : IsNumber x) (hy : IsNumber y)
    (h : order x y ≠ .gt) : x ≤ y := by
  apply le_of_not_lt hx hy
  intro hlt
  apply h
  rw [← LawfulOrder.order_swap y x, order_of_lt hlt]
  rfl

end Scalar
end Extrusion
