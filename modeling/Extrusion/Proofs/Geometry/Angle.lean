import Extrusion.Geometry.Planar
import Extrusion.Proofs.Scalar.Real

/-!
# Angles

In exact arithmetic the cosine and the sine of the angle between two vectors are
their dot product and their determinant, divided by both lengths.  So turning a
point by the angle to another one that is as far from the pivot gives that one.
-/

namespace Extrusion
namespace Vec2

variable (a b : Vec2 ℝ)

theorem length_nonneg : 0 ≤ a.length :=
  Real.sqrt_nonneg _

theorem length_mul_length : a.length * a.length = a.x * a.x + a.y * a.y :=
  Real.mul_self_sqrt (add_nonneg (mul_self_nonneg a.x) (mul_self_nonneg a.y))

theorem dot_comm : a.dot b = b.dot a := by
  show a.x * b.x + a.y * b.y = b.x * a.x + b.y * a.y
  ring

theorem determinant_swap : b.determinant a = -a.determinant b := by
  show b.x * a.y - b.y * a.x = -(a.x * b.y - a.y * b.x)
  ring

/-- Lagrange's identity in the plane. -/
theorem dot_mul_dot_add_determinant_mul_determinant :
    a.dot b * a.dot b + a.determinant b * a.determinant b =
      (a.length * b.length) * (a.length * b.length) := by
  have hlengths : (a.length * b.length) * (a.length * b.length) =
      (a.length * a.length) * (b.length * b.length) := by ring
  rw [hlengths, length_mul_length, length_mul_length]
  show (a.x * b.x + a.y * b.y) * (a.x * b.x + a.y * b.y) +
    (a.x * b.y - a.y * b.x) * (a.x * b.y - a.y * b.x) = _
  ring

variable {a b}

theorem abs_dot_le : |a.dot b| ≤ a.length * b.length := by
  apply abs_le_of_sq_le_sq _ (mul_nonneg a.length_nonneg b.length_nonneg)
  nlinarith [dot_mul_dot_add_determinant_mul_determinant a b, mul_self_nonneg (a.determinant b)]

theorem length_ne_zero_of_determinant_ne_zero (h : a.determinant b ≠ 0) :
    a.length ≠ 0 ∧ b.length ≠ 0 := by
  have hproduct : a.length * b.length ≠ 0 := by
    intro hzero
    have hlagrange := dot_mul_dot_add_determinant_mul_determinant a b
    rw [hzero] at hlagrange
    apply h
    nlinarith [mul_self_nonneg (a.dot b), mul_self_nonneg (a.determinant b)]
  exact mul_ne_zero_iff.mp hproduct

/-!
# Angles between vectors
-/

theorem normalized_of_length_ne_zero (h : a.length ≠ 0) :
    a.normalized = ⟨a.x / a.length, a.y / a.length⟩ := by
  show (if (a.length == 0) = true then 0 else _) = _
  exact if_neg fun hzero => h (Scalar.beq_real_iff.mp hzero)

/-- The cosine of the angle lies within the bounds that the definition clamps it to. -/
theorem innerAngle_eq (ha : a.length ≠ 0) (hb : b.length ≠ 0) :
    a.innerAngle b = Real.arccos (a.dot b / (a.length * b.length)) := by
  have hpositive : 0 < a.length * b.length :=
    mul_pos (a.length_nonneg.lt_of_ne' ha) (b.length_nonneg.lt_of_ne' hb)
  have hdot : a.normalized.dot b.normalized = a.dot b / (a.length * b.length) := by
    rw [normalized_of_length_ne_zero ha, normalized_of_length_ne_zero hb]
    show a.x / a.length * (b.x / b.length) + a.y / a.length * (b.y / b.length) =
      (a.x * b.x + a.y * b.y) / (a.length * b.length)
    field_simp
  have hbounds := abs_le.mp (abs_dot_le (a := a) (b := b))
  have hlow : -1 ≤ a.dot b / (a.length * b.length) := by
    rw [le_div_iff₀ hpositive]
    linarith
  have hhigh : a.dot b / (a.length * b.length) ≤ 1 := by
    rw [div_le_iff₀ hpositive]
    linarith
  show Real.arccos (Scalar.clamp (-1) 1 (a.normalized.dot b.normalized)) = _
  rw [hdot, Scalar.clamp_real (by norm_num), min_eq_right hhigh, max_eq_right hlow]

theorem innerAngle_nonneg (a b : Vec2 ℝ) : 0 ≤ a.innerAngle b :=
  Real.arccos_nonneg _

theorem innerAngle_le_pi (a b : Vec2 ℝ) : a.innerAngle b ≤ Real.pi :=
  Real.arccos_le_pi _

theorem innerAngle_comm (a b : Vec2 ℝ) : a.innerAngle b = b.innerAngle a := by
  show Real.arccos (Scalar.clamp (-1) 1 (a.normalized.dot b.normalized)) =
    Real.arccos (Scalar.clamp (-1) 1 (b.normalized.dot a.normalized))
  rw [dot_comm]

theorem cos_innerAngle (ha : a.length ≠ 0) (hb : b.length ≠ 0) :
    Real.cos (a.innerAngle b) = a.dot b / (a.length * b.length) := by
  have hpositive : 0 < a.length * b.length :=
    mul_pos (a.length_nonneg.lt_of_ne' ha) (b.length_nonneg.lt_of_ne' hb)
  rcases abs_le.mp (abs_dot_le (a := a) (b := b)) with ⟨hlow, hhigh⟩
  rw [innerAngle_eq ha hb, Real.cos_arccos]
  · rw [le_div_iff₀ hpositive]
    linarith
  · rw [div_le_iff₀ hpositive]
    linarith

theorem sin_innerAngle (ha : a.length ≠ 0) (hb : b.length ≠ 0) :
    Real.sin (a.innerAngle b) = |a.determinant b| / (a.length * b.length) := by
  have hpositive : 0 < a.length * b.length :=
    mul_pos (a.length_nonneg.lt_of_ne' ha) (b.length_nonneg.lt_of_ne' hb)
  have hsin : 0 ≤ Real.sin (a.innerAngle b) :=
    Real.sin_nonneg_of_nonneg_of_le_pi (innerAngle_nonneg a b) (innerAngle_le_pi a b)
  have hsquare : Real.sin (a.innerAngle b) ^ 2 =
      (a.determinant b / (a.length * b.length)) ^ 2 := by
    rw [Real.sin_sq, cos_innerAngle ha hb]
    field_simp
    linarith [dot_mul_dot_add_determinant_mul_determinant a b]
  rw [← abs_of_nonneg hsin, (sq_eq_sq_iff_abs_eq_abs _ _).mp hsquare, abs_div, abs_of_pos hpositive]

/-!
# Signed angles
-/

theorem signedAngle_of_determinant_neg (h : a.determinant b < 0) :
    a.signedAngle b = -a.innerAngle b :=
  if_pos h

theorem signedAngle_of_determinant_nonneg (h : 0 ≤ a.determinant b) :
    a.signedAngle b = a.innerAngle b :=
  if_neg (not_lt.mpr h)

theorem innerAngle_pos_and_lt_pi (h : a.determinant b ≠ 0) :
    0 < a.innerAngle b ∧ a.innerAngle b < Real.pi := by
  rcases length_ne_zero_of_determinant_ne_zero h with ⟨ha, hb⟩
  have hsin : Real.sin (a.innerAngle b) ≠ 0 := by
    rw [sin_innerAngle ha hb]
    exact div_ne_zero (abs_ne_zero.mpr h) (mul_ne_zero ha hb)
  constructor
  · refine (innerAngle_nonneg a b).lt_of_ne' fun hzero => hsin ?_
    rw [hzero, Real.sin_zero]
  · refine (innerAngle_le_pi a b).lt_of_ne fun hpi => hsin ?_
    rw [hpi, Real.sin_pi]

theorem signedAngle_self (h : a.length ≠ 0) : a.signedAngle a = 0 := by
  have hdot : a.dot a = a.length * a.length := (length_mul_length a).symm
  have hdeterminant : a.determinant a = 0 := sub_eq_zero.mpr (mul_comm a.x a.y)
  rw [signedAngle_of_determinant_nonneg hdeterminant.ge, innerAngle_eq h h, hdot,
    div_self (mul_ne_zero h h), Real.arccos_one]

theorem signedAngle_cases (a b : Vec2 ℝ) :
    a.determinant b < 0 ∧ -Real.pi < a.signedAngle b ∧ a.signedAngle b < 0 ∨
      0 ≤ a.determinant b ∧ 0 ≤ a.signedAngle b ∧ a.signedAngle b ≤ Real.pi := by
  rcases lt_or_ge (a.determinant b) 0 with hneg | hnonneg
  · rcases innerAngle_pos_and_lt_pi hneg.ne with ⟨hpos, hlt⟩
    rw [signedAngle_of_determinant_neg hneg]
    exact Or.inl ⟨hneg, neg_lt_neg hlt, neg_neg_of_pos hpos⟩
  · rw [signedAngle_of_determinant_nonneg hnonneg]
    exact Or.inr ⟨hnonneg, innerAngle_nonneg a b, innerAngle_le_pi a b⟩

theorem cos_signedAngle (ha : a.length ≠ 0) (hb : b.length ≠ 0) :
    Real.cos (a.signedAngle b) = a.dot b / (a.length * b.length) := by
  rw [← cos_innerAngle ha hb]
  rcases lt_or_ge (a.determinant b) 0 with hneg | hnonneg
  · rw [signedAngle_of_determinant_neg hneg, Real.cos_neg]
  · rw [signedAngle_of_determinant_nonneg hnonneg]

theorem sin_signedAngle (ha : a.length ≠ 0) (hb : b.length ≠ 0) :
    Real.sin (a.signedAngle b) = a.determinant b / (a.length * b.length) := by
  rcases lt_or_ge (a.determinant b) 0 with hneg | hnonneg
  · rw [signedAngle_of_determinant_neg hneg, Real.sin_neg, sin_innerAngle ha hb, abs_of_neg hneg,
      neg_div, neg_neg]
  · rw [signedAngle_of_determinant_nonneg hnonneg, sin_innerAngle ha hb, abs_of_nonneg hnonneg]

theorem signedAngle_swap (h : a.determinant b ≠ 0) : b.signedAngle a = -a.signedAngle b := by
  rcases h.lt_or_gt with hneg | hpos
  · have hswap : 0 ≤ b.determinant a := by
      rw [determinant_swap]
      linarith
    rw [signedAngle_of_determinant_neg hneg, signedAngle_of_determinant_nonneg hswap,
      innerAngle_comm, neg_neg]
  · have hswap : b.determinant a < 0 := by
      rw [determinant_swap]
      linarith
    rw [signedAngle_of_determinant_nonneg hpos.le, signedAngle_of_determinant_neg hswap,
      innerAngle_comm]

theorem signedAngle_comm_of_determinant_eq_zero (h : a.determinant b = 0) :
    b.signedAngle a = a.signedAngle b := by
  have hswap : b.determinant a = 0 := by rw [determinant_swap, h, neg_zero]
  rw [signedAngle_of_determinant_nonneg h.ge, signedAngle_of_determinant_nonneg hswap.ge,
    innerAngle_comm]

theorem signedAngle_ne_zero (h : a.determinant b ≠ 0) : a.signedAngle b ≠ 0 := by
  have hpos := (innerAngle_pos_and_lt_pi h).1
  rcases h.lt_or_gt with hneg | hpos'
  · rw [signedAngle_of_determinant_neg hneg]
    exact neg_ne_zero.mpr hpos.ne'
  · rw [signedAngle_of_determinant_nonneg hpos'.le]
    exact hpos.ne'

theorem signedAngle_of_determinant_eq_zero (ha : a.length ≠ 0) (hb : b.length ≠ 0)
    (h : a.determinant b = 0) : a.signedAngle b = 0 ∨ a.signedAngle b = Real.pi := by
  have hsin : Real.sin (a.innerAngle b) = 0 := by
    rw [sin_innerAngle ha hb, h, abs_zero, zero_div]
  rw [signedAngle_of_determinant_nonneg h.ge]
  rcases (innerAngle_nonneg a b).eq_or_lt with hzero | hpos
  · exact Or.inl hzero.symm
  · rcases (innerAngle_le_pi a b).eq_or_lt with hpi | hlt
    · exact Or.inr hpi
    · exact absurd hsin (Real.sin_pos_of_pos_of_lt_pi hpos hlt).ne'

/-!
# Rotations
-/

theorem rotated_real (a pivot : Vec2 ℝ) (angle : ℝ) :
    a.rotated pivot angle =
      ⟨(a - pivot).x * Real.cos angle - (a - pivot).y * Real.sin angle + pivot.x,
        (a - pivot).x * Real.sin angle + (a - pivot).y * Real.cos angle + pivot.y⟩ := rfl

theorem rotated_sub_pivot (a pivot : Vec2 ℝ) (angle : ℝ) :
    a.rotated pivot angle - pivot =
      ⟨(a - pivot).x * Real.cos angle - (a - pivot).y * Real.sin angle,
        (a - pivot).x * Real.sin angle + (a - pivot).y * Real.cos angle⟩ := by
  show (⟨_ + pivot.x - pivot.x, _ + pivot.y - pivot.y⟩ : Vec2 ℝ) = _
  rw [add_sub_cancel_right, add_sub_cancel_right]
  rfl

theorem rotated_zero (a pivot : Vec2 ℝ) : a.rotated pivot 0 = a := by
  rw [rotated_real, Real.cos_zero, Real.sin_zero]
  show (⟨(a.x - pivot.x) * 1 - _ * 0 + pivot.x, _ * 0 + (a.y - pivot.y) * 1 + pivot.y⟩ : Vec2 ℝ) =
    ⟨a.x, a.y⟩
  congr 1 <;> ring

theorem rotated_rotated (a pivot : Vec2 ℝ) (first second : ℝ) :
    (a.rotated pivot first).rotated pivot second = a.rotated pivot (first + second) := by
  rw [rotated_real (a.rotated pivot first), rotated_sub_pivot, rotated_real, Real.cos_add,
    Real.sin_add]
  congr 1 <;> ring

theorem distance_rotated (a pivot : Vec2 ℝ) (angle : ℝ) :
    (a.rotated pivot angle).distance pivot = a.distance pivot := by
  have hone := Real.cos_sq_add_sin_sq angle
  unfold distance
  rw [rotated_sub_pivot]
  generalize a - pivot = arm
  show √((arm.x * Real.cos angle - arm.y * Real.sin angle) *
      (arm.x * Real.cos angle - arm.y * Real.sin angle) +
    (arm.x * Real.sin angle + arm.y * Real.cos angle) *
      (arm.x * Real.sin angle + arm.y * Real.cos angle)) = √(arm.x * arm.x + arm.y * arm.y)
  congr 1
  linear_combination (arm.x * arm.x + arm.y * arm.y) * hone

theorem rotated_congr {angle other : ℝ} (a pivot : Vec2 ℝ)
    (hcos : Real.cos angle = Real.cos other) (hsin : Real.sin angle = Real.sin other) :
    a.rotated pivot angle = a.rotated pivot other := by
  rw [rotated_real, hcos, hsin, ← rotated_real]

/-- The second of two vectors out of the first one, their dot product and their
determinant. -/
theorem mul_dot_determinant (a b : Vec2 ℝ) :
    a.x * a.dot b - a.y * a.determinant b = b.x * (a.length * a.length) ∧
      a.x * a.determinant b + a.y * a.dot b = b.y * (a.length * a.length) := by
  rw [length_mul_length]
  show a.x * (a.x * b.x + a.y * b.y) - a.y * (a.x * b.y - a.y * b.x) = _ ∧
    a.x * (a.x * b.y - a.y * b.x) + a.y * (a.x * b.x + a.y * b.y) = _
  constructor <;> ring

/-- Turning a point by the angle to another one at the same distance gives that one. -/
theorem rotated_signedAngle {pivot : Vec2 ℝ} (hzero : a.distance pivot ≠ 0)
    (h : b.distance pivot = a.distance pivot) :
    a.rotated pivot ((a - pivot).signedAngle (b - pivot)) = b := by
  have ha : (a - pivot).length ≠ 0 := hzero
  have hlength : (b - pivot).length = (a - pivot).length := h
  have hb : (b - pivot).length ≠ 0 := hlength ▸ ha
  have hcos := cos_signedAngle ha hb
  have hsin := sin_signedAngle ha hb
  rcases mul_dot_determinant (a - pivot) (b - pivot) with ⟨hx, hy⟩
  rw [hlength] at hcos hsin
  generalize (a - pivot).signedAngle (b - pivot) = angle at hcos hsin
  have hxturned : (a - pivot).x * Real.cos angle - (a - pivot).y * Real.sin angle =
      (b - pivot).x := by
    rw [hcos, hsin]
    field_simp
    linarith
  have hyturned : (a - pivot).x * Real.sin angle + (a - pivot).y * Real.cos angle =
      (b - pivot).y := by
    rw [hcos, hsin]
    field_simp
    linarith
  rw [rotated_real, hxturned, hyturned]
  show (⟨b.x - pivot.x + pivot.x, b.y - pivot.y + pivot.y⟩ : Vec2 ℝ) = ⟨b.x, b.y⟩
  rw [sub_add_cancel, sub_add_cancel]

/-!
# Chords
-/

theorem length_scale (a : Vec2 ℝ) {factor : ℝ} (h : 0 ≤ factor) :
    (a.scale factor).length = a.length * factor := by
  rw [← Real.sqrt_mul_self (mul_nonneg a.length_nonneg h), mul_mul_mul_comm, length_mul_length]
  show √(a.x * factor * (a.x * factor) + a.y * factor * (a.y * factor)) = _
  congr 1
  ring

theorem rotated_sub_middle (a pivot : Vec2 ℝ) (angle : ℝ) :
    a.rotated pivot (angle / 2) - (a + a.rotated pivot angle).scale (1 / 2) =
      (a.rotated pivot (angle / 2) - pivot).scale (1 - Real.cos (angle / 2)) := by
  have hcos : Real.cos angle = 2 * Real.cos (angle / 2) ^ 2 - 1 := by
    rw [← Real.cos_two_mul, mul_div_cancel₀ angle two_ne_zero]
  have hsin : Real.sin angle = 2 * Real.sin (angle / 2) * Real.cos (angle / 2) := by
    rw [← Real.sin_two_mul, mul_div_cancel₀ angle two_ne_zero]
  rw [rotated_sub_pivot, rotated_real, rotated_real, hcos, hsin]
  generalize Real.cos (angle / 2) = c
  generalize Real.sin (angle / 2) = s
  rcases a with ⟨x, y⟩
  rcases pivot with ⟨u, v⟩
  show (⟨(x - u) * c - (y - v) * s + u -
        (x + ((x - u) * (2 * c ^ 2 - 1) - (y - v) * (2 * s * c) + u)) * (1 / 2),
      (x - u) * s + (y - v) * c + v -
        (y + ((x - u) * (2 * s * c) + (y - v) * (2 * c ^ 2 - 1) + v)) * (1 / 2)⟩ : Vec2 ℝ) =
    ⟨((x - u) * c - (y - v) * s) * (1 - c), ((x - u) * s + (y - v) * c) * (1 - c)⟩
  congr 1 <;> ring

theorem distance_middle (a pivot : Vec2 ℝ) (angle : ℝ) :
    (a.rotated pivot (angle / 2)).distance ((a + a.rotated pivot angle).scale (1 / 2)) =
      a.distance pivot * (1 - Real.cos (angle / 2)) := by
  rw [← distance_rotated a pivot (angle / 2)]
  show (a.rotated pivot (angle / 2) - (a + a.rotated pivot angle).scale (1 / 2)).length = _
  rw [rotated_sub_middle, length_scale _ (sub_nonneg.mpr (Real.cos_le_one _))]
  rfl

end Vec2
end Extrusion
