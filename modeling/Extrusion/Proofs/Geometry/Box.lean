import Extrusion.Geometry.Box
import Extrusion.Model
import Extrusion.Proofs.Scalar.Bounds

/-!
# What bounding boxes contain

A box contains a point if the point lies between its corners on every axis on
which it has a number.  The box of some points encloses them: it contains them all,
and its sides are at coordinates of theirs.  A merged box encloses what either box
encloses.
-/

namespace Extrusion

open Scalar

/-- What holds of the start of a fold, or of what one step makes of an element,
holds at the end if no step takes it away. -/
theorem foldl_holds {β γ : Type} {step : β → γ → β} (holds : β → Prop) (adds : γ → Prop)
    (keeps : ∀ acc x, holds acc → holds (step acc x))
    (gains : ∀ acc x, adds x → holds (step acc x)) {acc : β} {xs : List γ}
    (h : holds acc ∨ ∃ x ∈ xs, adds x) : holds (xs.foldl step acc) := by
  induction xs generalizing acc with
  | nil =>
      rcases h with h | ⟨x, hx, _⟩
      · exact h
      · cases hx
  | cons x xs ih =>
      apply ih
      rcases h with h | ⟨y, hy, hadds⟩
      · exact Or.inl (keeps acc x h)
      · rcases List.mem_cons.mp hy with rfl | hy
        · exact Or.inl (gains acc y hadds)
        · exact Or.inr ⟨y, hy, hadds⟩

variable {α : Type} [Scalar α]

namespace Box2

def Contains (box : Box2 α) (p : Vec2 α) : Prop :=
  Between box.min.x box.max.x p.x ∧ Between box.min.y box.max.y p.y

/-- A box reaches on each axis from one of some points to one of them, and no point lies
beyond. -/
structure Encloses (box : Box2 α) (points : List (Vec2 α)) : Prop where
  x : Spans box.min.x box.max.x (points.map (·.x))
  y : Spans box.min.y box.max.y (points.map (·.y))

theorem Encloses.contains {box : Box2 α} {points : List (Vec2 α)} (h : box.Encloses points)
    {p : Vec2 α} (hp : p ∈ points) : box.Contains p :=
  ⟨h.x.between p.x (List.mem_map_of_mem hp), h.y.between p.y (List.mem_map_of_mem hp)⟩

variable [LawfulBounds α] {a b : Box2 α}

theorem encloses_point (p : Vec2 α) : Encloses ⟨p, p⟩ [p] :=
  ⟨spans_singleton p.x, spans_singleton p.y⟩

theorem Encloses.merged {points others : List (Vec2 α)} (ha : a.Encloses points)
    (hb : b.Encloses others) : (a.merged b).Encloses (points ++ others) where
  x := by
    rw [List.map_append]
    exact ha.x.append hb.x
  y := by
    rw [List.map_append]
    exact ha.y.append hb.y

theorem encloses_foldl {box : Box2 α} {points : List (Vec2 α)} (h : box.Encloses points)
    (rest : List (Vec2 α)) :
    (rest.foldl (fun box p => ⟨box.min.min p, box.max.max p⟩) box).Encloses (points ++ rest) := by
  induction rest generalizing box points with
  | nil =>
      rw [List.append_nil]
      exact h
  | cons p rest ih =>
      rw [List.append_cons]
      exact ih (h.merged (encloses_point p))

theorem ofPoints_cases (points : List (Vec2 α)) :
    (points = [] ∧ ofPoints points = none) ∨
      ∃ box, ofPoints points = some box ∧ box.Encloses points := by
  cases points with
  | nil => exact Or.inl ⟨rfl, rfl⟩
  | cons first rest => exact Or.inr ⟨_, rfl, encloses_foldl (encloses_point first) rest⟩

end Box2

namespace Box3

def Contains (box : Box3 α) (p : Point3 α) : Prop :=
  Between box.min.x box.max.x p.x ∧ Between box.min.y box.max.y p.y ∧
    Between box.min.z box.max.z p.z

theorem contains_ofPlanar_iff {base : Box2 α} {low high : α} {p : Vec2 α} {z : α} :
    (ofPlanar base low high).Contains ⟨p.x, p.y, z⟩ ↔ base.Contains p ∧ Between low high z :=
  and_assoc.symm

variable [LawfulBounds α] {a b : Box3 α} {p : Point3 α}

theorem Contains.merged_left (h : a.Contains p) (b : Box3 α) : (a.merged b).Contains p :=
  ⟨h.1.widen_left b.min.x b.max.x, h.2.1.widen_left b.min.y b.max.y,
    h.2.2.widen_left b.min.z b.max.z⟩

theorem Contains.merged_right (h : b.Contains p) (a : Box3 α) : (a.merged b).Contains p :=
  ⟨h.1.widen_right a.min.x a.max.x, h.2.1.widen_right a.min.y a.max.y,
    h.2.2.widen_right a.min.z a.max.z⟩

end Box3
end Extrusion
