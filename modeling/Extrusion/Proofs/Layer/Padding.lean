import Extrusion.Layer
import Extrusion.Proofs.Geometry.Angle

/-!
# Padding

Padding moves the two ends of a path and no other point.  The last point of a path
of two points is moved away from where the first one has been moved to.  In exact
arithmetic this makes no difference: either end moves by the padding, straight away
from where its neighbour was.
-/

namespace Extrusion
namespace Path

variable {α : Type}

theorem size_pos (path : Path α) : 0 < path.points.size :=
  Nat.lt_of_lt_of_le Nat.zero_lt_two path.two_le_size

def second (path : Path α) : Vec2 α :=
  have := path.two_le_size
  path.points[1]

def beforeLast (path : Path α) : Vec2 α :=
  have := path.two_le_size
  path.points[path.points.size - 2]

/-- A path has the points of another one, the two ends apart. -/
structure SameInside (before after : Path α) : Prop where
  size : after.size = before.size
  inside : ∀ i, 0 < i → i + 1 < before.size → after.points[i]? = before.points[i]?

variable [Scalar α]

/-- A path is padded once: each end is moved outward once, the first one first. -/
structure PaddedOnce (length : α) (before after : Path α) : Prop
    extends SameInside before after where
  first : after.first = outward before.first before.second length
  last : after.last = outward before.last
    (if before.size = 2 then after.first else before.beforeLast) length

/-!
# One end after the other
-/

section

variable (path : Path α) (length : α)

def started : Array (Vec2 α) :=
  path.points.set 0 (outward path.first path.second length) path.size_pos

theorem size_started : (path.started length).size = path.points.size :=
  Array.size_set path.size_pos

theorem points_padded :
    have := path.two_le_size
    have hsize := path.size_started length
    (path.padded length).points = (path.started length).set (path.points.size - 1)
      (outward (path.started length)[path.points.size - 1]
        (path.started length)[path.points.size - 2] length) := rfl

theorem size_padded : (path.padded length).points.size = path.points.size := by
  rw [points_padded, Array.size_set, size_started]

theorem getElem_started_zero :
    have := path.size_pos
    have hsize := path.size_started length
    (path.started length)[0] = outward path.first path.second length :=
  Array.getElem_set_self path.size_pos

theorem getElem_started {i : Nat} (hi : i < path.points.size) (h : 0 < i) :
    have hsize := path.size_started length
    (path.started length)[i] = path.points[i] :=
  Array.getElem_set_ne path.size_pos hi (by omega)

theorem first_padded : (path.padded length).first = outward path.first path.second length := by
  have htwo := path.two_le_size
  have hstarted := path.size_started length
  have hpadded := path.size_padded length
  rw [← getElem_started_zero]
  show (path.padded length).points[0] = _
  simp only [points_padded]
  exact Array.getElem_set_ne _ (by omega) (by omega)

theorem last_padded : (path.padded length).last = outward path.last
    (if path.size = 2 then (path.padded length).first else path.beforeLast) length := by
  have htwo := path.two_le_size
  have hstarted := path.size_started length
  have hpadded := path.size_padded length
  have hlast : (path.padded length).last = outward (path.started length)[path.points.size - 1]
      (path.started length)[path.points.size - 2] length := by
    show (path.padded length).points[(path.padded length).points.size - 1] = _
    simp only [points_padded, Array.size_set, hstarted]
    exact Array.getElem_set_self _
  rw [hlast, getElem_started path length (by omega) (by omega)]
  by_cases hpair : path.size = 2
  · have hzero : path.points.size - 2 = 0 := by
      rw [show path.points.size = 2 from hpair]
    rw [if_pos hpair, first_padded, ← getElem_started_zero]
    simp only [hzero]
    rfl
  · have hmore : 0 < path.points.size - 2 := by
      have hne : path.points.size ≠ 2 := hpair
      omega
    rw [if_neg hpair, getElem_started path length (by omega) hmore]
    rfl

theorem paddedOnce_padded : PaddedOnce length path (path.padded length) where
  size := size_padded path length
  inside := by
    intro i hfirst hlast
    have hsize : path.size = path.points.size := rfl
    rw [points_padded, Array.getElem?_set_ne _ (by omega)]
    exact Array.getElem?_set_ne path.size_pos (by omega)
  first := first_padded path length
  last := last_padded path length

end

end Path

/-!
# Exact arithmetic
-/

namespace Vec2

theorem length_sub_self (a : Vec2 ℝ) : (a - a).length = 0 := by
  show √((a.x - a.x) * (a.x - a.x) + (a.y - a.y) * (a.y - a.y)) = 0
  simp

theorem length_sub_pos {a b : Vec2 ℝ} (h : a ≠ b) : 0 < (a - b).length := by
  apply (length_nonneg _).lt_of_ne'
  intro hzero
  apply h
  have hsquares := length_mul_length (a - b)
  rw [hzero, mul_zero] at hsquares
  rcases mul_self_add_mul_self_eq_zero.mp hsquares.symm with ⟨hx, hy⟩
  exact congrArg₂ Vec2.mk (sub_eq_zero.mp hx) (sub_eq_zero.mp hy)

theorem scale_scale (a : Vec2 ℝ) (c d : ℝ) : (a.scale c).scale d = a.scale (c * d) :=
  congrArg₂ Vec2.mk (mul_assoc a.x c d) (mul_assoc a.y c d)

end Vec2

namespace Path

/-- A point is moved by a length straight away from its neighbour.  It stays where
both coincide. -/
def MovedAway (length : ℝ) (neighbour tip moved : Vec2 ℝ) : Prop :=
  (tip = neighbour → moved = tip) ∧
    (tip ≠ neighbour → moved.distance tip = length ∧
      ∃ factor, 0 < factor ∧ moved = tip + (tip - neighbour).scale factor)

structure PaddedApart (length : ℝ) (before after : Path ℝ) : Prop
    extends SameInside before after where
  first : MovedAway length before.second before.first after.first
  last : MovedAway length before.beforeLast before.last after.last

section

variable {tip neighbour : Vec2 ℝ} {length : ℝ}

theorem outward_self (tip : Vec2 ℝ) (length : ℝ) : outward tip tip length = tip := by
  have hnormalized : (tip - tip).normalized = 0 :=
    if_pos (Scalar.beq_real_iff.mpr (Vec2.length_sub_self tip))
  unfold outward
  rw [hnormalized]
  show (⟨tip.x + 0 * length, tip.y + 0 * length⟩ : Vec2 ℝ) = tip
  rw [zero_mul, add_zero, add_zero]

theorem outward_of_ne (h : tip ≠ neighbour) :
    outward tip neighbour length =
      tip + (tip - neighbour).scale (length / tip.distance neighbour) := by
  have hpos := Vec2.length_sub_pos h
  unfold outward
  rw [Vec2.normalized_of_length_ne_zero hpos.ne']
  show tip + (⟨_ / _ * length, _ / _ * length⟩ : Vec2 ℝ) = tip + ⟨_ * (length / _), _ * (length / _)⟩
  rw [div_mul_eq_mul_div, div_mul_eq_mul_div, mul_div_assoc, mul_div_assoc]
  rfl

theorem movedAway_outward (h : 0 < length) :
    MovedAway length neighbour tip (outward tip neighbour length) := by
  constructor
  · rintro rfl
    exact outward_self tip length
  · intro hne
    have hpos : 0 < tip.distance neighbour := Vec2.length_sub_pos hne
    rw [outward_of_ne hne]
    refine ⟨?_, _, div_pos h hpos, rfl⟩
    have hstep : tip + (tip - neighbour).scale (length / tip.distance neighbour) - tip =
        (tip - neighbour).scale (length / tip.distance neighbour) :=
      congrArg₂ Vec2.mk (add_sub_cancel_left _ _) (add_sub_cancel_left _ _)
    show (_ - tip : Vec2 ℝ).length = length
    rw [hstep, Vec2.length_scale _ (div_pos h hpos).le]
    exact mul_div_cancel₀ length hpos.ne'

/-- Moving the neighbour away first makes no difference. -/
theorem outward_outward (h : 0 < length) :
    outward tip (outward neighbour tip length) length = outward tip neighbour length := by
  by_cases heq : tip = neighbour
  · rw [heq, outward_self, outward_self]
  · have hdistance : 0 < neighbour.distance tip := Vec2.length_sub_pos (Ne.symm heq)
    have hpos : 0 < tip.distance neighbour := Vec2.length_sub_pos heq
    have hfactor : 0 < 1 + length / neighbour.distance tip := by positivity
    -- The neighbour moves along the line, so its arm to the tip only gets longer.
    have harm : tip - outward neighbour tip length =
        (tip - neighbour).scale (1 + length / neighbour.distance tip) := by
      rw [outward_of_ne (Ne.symm heq)]
      apply congrArg₂ Vec2.mk
      · show tip.x - (neighbour.x + (neighbour.x - tip.x) * _) = (tip.x - neighbour.x) * _
        ring
      · show tip.y - (neighbour.y + (neighbour.y - tip.y) * _) = (tip.y - neighbour.y) * _
        ring
    have hlength : tip.distance (outward neighbour tip length) =
        tip.distance neighbour * (1 + length / neighbour.distance tip) := by
      show (tip - outward neighbour tip length).length = _
      rw [harm, Vec2.length_scale _ hfactor.le]
      rfl
    have hne : tip ≠ outward neighbour tip length := by
      intro hsame
      have hzero : tip.distance (outward neighbour tip length) = 0 := by
        rw [← hsame]
        exact Vec2.length_sub_self tip
      rw [hlength] at hzero
      exact (mul_pos hpos hfactor).ne' hzero
    rw [outward_of_ne hne, outward_of_ne heq, harm, Vec2.scale_scale, hlength]
    congr 2
    field_simp

end

theorem second_of_pair {path : Path α} (h : path.size = 2) : path.second = path.last := by
  have hsize : path.points.size - 1 = 1 := by
    rw [show path.points.size = 2 from h]
  unfold second last
  simp only [hsize]

theorem beforeLast_of_pair {path : Path α} (h : path.size = 2) :
    path.beforeLast = path.first := by
  have hsize : path.points.size - 2 = 0 := by
    rw [show path.points.size = 2 from h]
  unfold beforeLast first
  simp only [hsize]

theorem PaddedOnce.apart {length : ℝ} {before after : Path ℝ}
    (h : PaddedOnce length before after) (hlength : 0 < length) :
    PaddedApart length before after where
  toSameInside := h.toSameInside
  first := by
    rw [h.first]
    exact movedAway_outward hlength
  last := by
    rw [h.last]
    by_cases hpair : before.size = 2
    · rw [if_pos hpair, h.first, second_of_pair hpair, outward_outward hlength,
        beforeLast_of_pair hpair]
      exact movedAway_outward hlength
    · rw [if_neg hpair]
      exact movedAway_outward hlength

end Path
end Extrusion
