import Extrusion.Proofs.Layer.Joining
import Extrusion.Proofs.Model.Bounds

/-!
# The extent of a model

In the plane the boxes of a model are the smallest ones: the one without the priming
layer encloses all padded points of the layers, and the other one those and the
points of the priming layer.
-/

namespace Extrusion

open Scalar

variable {α : Type} [Scalar α]

/-!
# Smallest boxes
-/

def Box2.Within (a b : Box2 α) : Prop :=
  b.min.x ≤ a.min.x ∧ a.max.x ≤ b.max.x ∧ b.min.y ≤ a.min.y ∧ a.max.y ≤ b.max.y

/-- A box is the smallest one that contains some points, and each of its sides touches
one of them. -/
structure Box2.IsSmallest (box : Box2 α) (points : List (Vec2 α)) : Prop where
  contains : ∀ p ∈ points, box.Contains p
  least : ∀ other : Box2 α, (∀ p ∈ points, other.Contains p) → box.Within other
  left : ∃ p ∈ points, p.x = box.min.x
  right : ∃ p ∈ points, p.x = box.max.x
  bottom : ∃ p ∈ points, p.y = box.min.y
  top : ∃ p ∈ points, p.y = box.max.y

theorem Box2.Encloses.isSmallest {box : Box2 α} {points : List (Vec2 α)}
    (h : box.Encloses points) (hdefined : ∀ p ∈ points, p.IsDefined) : box.IsSmallest points := by
  obtain ⟨left, hleft, hleft'⟩ := List.mem_map.mp h.x.low_mem
  obtain ⟨right, hright, hright'⟩ := List.mem_map.mp h.x.high_mem
  obtain ⟨bottom, hbottom, hbottom'⟩ := List.mem_map.mp h.y.low_mem
  obtain ⟨top, htop, htop'⟩ := List.mem_map.mp h.y.high_mem
  refine ⟨fun p => h.contains, ?_, ⟨left, hleft, hleft'⟩, ⟨right, hright, hright'⟩,
    ⟨bottom, hbottom, hbottom'⟩, ⟨top, htop, htop'⟩⟩
  intro other hother
  refine ⟨?_, ?_, ?_, ?_⟩
  · rw [← hleft']
    exact ((hother left hleft).1 (hdefined left hleft).1).1
  · rw [← hright']
    exact ((hother right hright).1 (hdefined right hright).1).2
  · rw [← hbottom']
    exact ((hother bottom hbottom).2 (hdefined bottom hbottom).2).1
  · rw [← htop']
    exact ((hother top htop).2 (hdefined top htop).2).2

def Box3.planar (box : Box3 α) : Box2 α :=
  ⟨box.min.planar, box.max.planar⟩

structure Box3.Within (a b : Box3 α) : Prop where
  planar : a.planar.Within b.planar
  low : b.min.z ≤ a.min.z
  high : a.max.z ≤ b.max.z

namespace Model

def layerPoints (model : Model α) : List (Vec2 α) :=
  model.layers.flatMap fun entry => entry.2.points

def primingPoints (model : Model α) : List (Vec2 α) :=
  model.priming.toList.flatMap fun entry => entry.2.points

structure ExtentRule (model : Model α) : Prop where
  layers : (model.bounds false).planar.IsSmallest model.layerPoints
  all : (model.bounds true).planar.IsSmallest (model.layerPoints ++ model.primingPoints)
  nested : (model.bounds false).Within (model.bounds true)

/-!
# Models with a path
-/

theorem layerPoints_ne_nil {α : Type} {model : Model α}
    (h : ∃ entry ∈ model.layers, entry.2.paths ≠ #[]) : model.layerPoints ≠ [] := by
  obtain ⟨entry, hentry, hpaths⟩ := h
  obtain ⟨path, hpath⟩ := Array.exists_mem_of_ne_empty entry.2.paths hpaths
  have hfirst : path.first ∈ entry.2.points :=
    List.mem_flatMap.mpr
      ⟨path, Array.mem_toList_iff.mpr hpath, Array.mem_toList_iff.mpr (Array.getElem_mem _)⟩
  exact List.ne_nil_of_mem (List.mem_flatMap.mpr ⟨entry, hentry, hfirst⟩)

section

variable [LawfulBounds α] {model : Model α}

theorem layerBounds_of_ne_nil (hzero : IsNumber (0 : α)) (h : model.layerPoints ≠ []) :
    ∃ plane high, model.layerBounds? = some (.ofPlanar plane 0 high) ∧
      plane.Encloses model.layerPoints ∧ IsNumber high := by
  obtain ⟨plane, hplane, hencloses⟩ := exists_layerPlane h
  refine ⟨plane, _, by rw [layerBounds_eq, hplane]; rfl, hencloses, ?_⟩
  -- The height starts at the bed and never falls below it.
  have hhigh : (0 : α) ≤ (model.layers.map (·.1)).foldl Scalar.max 0 := by
    apply foldl_holds (fun high : α => 0 ≤ high) (fun _ => False)
    · intro high z hle
      exact le_trans hle (left_le_max z (isNumber_right_of_le hle))
    · intro high z hfalse
      exact hfalse.elim
    · exact Or.inl hzero.le_refl
  exact isNumber_right_of_le hhigh

theorem primingBounds_cases (model : Model α) :
    (model.primingPoints = [] ∧ model.primingBounds? = none) ∨
      ∃ plane z, model.primingBounds? =
          some (.ofPlanar plane (Scalar.min z 0) (Scalar.max z 0)) ∧
        plane.Encloses model.primingPoints := by
  cases hpriming : model.priming with
  | none =>
      refine Or.inl ⟨?_, ?_⟩
      · unfold primingPoints
        rw [hpriming]
        rfl
      · unfold primingBounds?
        rw [hpriming]
        rfl
  | some entry =>
      have hpoints : model.primingPoints = entry.2.points := by
        unfold primingPoints
        rw [hpriming]
        exact List.append_nil _
      rw [primingBounds_eq hpriming, hpoints]
      rcases entry.2.bounds_cases with ⟨hempty, hnone⟩ | ⟨plane, hplane, hencloses⟩
      · exact Or.inl ⟨hempty, by rw [hnone]; rfl⟩
      · exact Or.inr ⟨plane, entry.1, by rw [hplane]; rfl, hencloses⟩

end

theorem bounds_true_of_none {model : Model α} {box : Box3 α} (hbox : model.layerBounds? = some box)
    (hnone : model.primingBounds? = none) : model.bounds true = box := by
  unfold bounds
  rw [if_pos rfl, hbox, hnone]

theorem bounds_true_of_some {model : Model α} {box primed : Box3 α}
    (hbox : model.layerBounds? = some box) (hprimed : model.primingBounds? = some primed) :
    model.bounds true = box.merged primed := by
  unfold bounds
  rw [if_pos rfl, hbox, hprimed]

end Model

section

variable [LawfulBounds α]

theorem Box3.within_self {box : Box3 α} {points : List (Vec2 α)}
    (h : box.planar.IsSmallest points) (hlow : IsNumber box.min.z) (hhigh : IsNumber box.max.z) :
    box.Within box where
  planar := h.least box.planar h.contains
  low := hlow.le_refl
  high := hhigh.le_refl

theorem Box3.within_merged {box other : Box3 α} {points others : List (Vec2 α)}
    (h : box.planar.IsSmallest points)
    (hmerged : (box.merged other).planar.IsSmallest (points ++ others))
    (hlow : IsNumber box.min.z) (hhigh : IsNumber box.max.z) : box.Within (box.merged other) where
  planar := h.least _ fun p hp => hmerged.contains p (List.mem_append_left others hp)
  low := min_le_left other.min.z hlow
  high := left_le_max other.max.z hhigh

end

namespace Model

/-- The boxes of a model with a path, all of whose points are defined. -/
theorem extentRule {model : Model Float} (hpath : ∃ entry ∈ model.layers, entry.2.paths ≠ #[])
    (hdefined : ∀ p ∈ model.layerPoints ++ model.primingPoints, p.IsDefined) :
    model.ExtentRule := by
  have hzero := isNumber_zero_float
  obtain ⟨plane, high, hbox, hencloses, hhigh⟩ :=
    layerBounds_of_ne_nil hzero (layerPoints_ne_nil hpath)
  have hlayers : plane.IsSmallest model.layerPoints :=
    hencloses.isSmallest fun p hp => hdefined p (List.mem_append_left _ hp)
  have hfalse := bounds_false_of_layerBounds hbox
  rcases primingBounds_cases model with ⟨hempty, hnone⟩ | ⟨primed, z, hprimed, hprimes⟩
  · have htrue := bounds_true_of_none hbox hnone
    refine ⟨by rw [hfalse]; exact hlayers, ?_, ?_⟩
    · rw [htrue, hempty, List.append_nil]
      exact hlayers
    · rw [hfalse, htrue]
      exact Box3.within_self hlayers hzero hhigh
  · have htrue := bounds_true_of_some hbox hprimed
    have hall : (plane.merged primed).IsSmallest (model.layerPoints ++ model.primingPoints) :=
      (hencloses.merged hprimes).isSmallest hdefined
    refine ⟨by rw [hfalse]; exact hlayers, by rw [htrue]; exact hall, ?_⟩
    rw [hfalse, htrue]
    exact Box3.within_merged hlayers hall hzero hhigh

/-- A layer below one without paths, and a priming layer that sticks out on two sides. -/
def primedStack : Model Float where
  layers :=
    [(1, ⟨#[.new ⟨0, 5⟩ ⟨8, 1⟩, .new ⟨3, -2⟩ ⟨3, 4⟩], none, none⟩), (2, .empty)]
  priming := some (3, ⟨#[.new ⟨-7, 0⟩ ⟨2, 6⟩], none, none⟩)
  nozzleDiameter := 1

theorem extentRule_primedStack :
    (∃ entry ∈ primedStack.layers, entry.2.paths ≠ #[]) ∧
      (∀ p ∈ primedStack.layerPoints ++ primedStack.primingPoints, p.IsDefined) ∧
      primedStack.ExtentRule := by
  have hpath : ∃ entry ∈ primedStack.layers, entry.2.paths ≠ #[] :=
    ⟨_, List.mem_cons_self, Array.ne_empty_of_size_pos (Nat.succ_pos 1)⟩
  have hequal : ((primedStack.layerPoints ++ primedStack.primingPoints).all fun p => p == p) =
      true := by
    decide +kernel
  have hdefined : ∀ p ∈ primedStack.layerPoints ++ primedStack.primingPoints, p.IsDefined := by
    intro p hp
    exact Vec2.beq_self_iff.mp (List.all_eq_true.mp hequal p hp)
  exact ⟨hpath, hdefined, extentRule hpath hdefined⟩

end Model
end Extrusion
