import Extrusion.Proofs.Build.Routes
import Extrusion.Proofs.Builder.Step
import Extrusion.Proofs.Geometry.Box

/-!
# The boxes of a model

The box of a model reaches from the bed to the highest layer, and around all
padded points in the plane.  It contains what is printed on or above the bed; a
layer below the bed is outside.  The priming layer is always inside the box that
takes it into account.
-/

namespace Extrusion

open Scalar

theorem Layer.bounds_cases {α : Type} [Scalar α] [LawfulBounds α] (layer : Layer α) :
    (layer.points = [] ∧ layer.bounds = none) ∨
      ∃ plane, layer.bounds = some plane ∧ plane.Encloses layer.points :=
  Box2.ofPoints_cases layer.points

namespace Model

theorem layerBounds_eq {α : Type} [Scalar α] (model : Model α) :
    model.layerBounds? =
      (reduce? Box2.merged (model.layers.filterMap fun entry => entry.2.bounds)).map fun plane =>
        .ofPlanar plane 0 ((model.layers.map (·.1)).foldl Scalar.max 0) := rfl

theorem primingBounds_eq {α : Type} [Scalar α] {model : Model α} {entry : α × Layer α}
    (hpriming : model.priming = some entry) :
    model.primingBounds? = entry.2.bounds.map fun plane =>
      .ofPlanar plane (Scalar.min entry.1 0) (Scalar.max entry.1 0) := by
  unfold primingBounds?
  rw [hpriming]
  show (entry.2.bounds.bind fun plane =>
    some (Box3.ofPlanar plane (Scalar.min entry.1 0) (Scalar.max entry.1 0))) = _
  cases entry.2.bounds <;> rfl

section

variable {α : Type} [Scalar α] [LawfulBounds α] {model : Model α} {entry : α × Layer α}
  {p : Vec2 α}

theorem encloses_foldl_merged {box : Box2 α} {points : List (Vec2 α)} (h : box.Encloses points)
    (entries : List (α × Layer α)) :
    ((entries.filterMap fun entry => entry.2.bounds).foldl Box2.merged box).Encloses
      (points ++ entries.flatMap fun entry => entry.2.points) := by
  induction entries generalizing box points with
  | nil =>
      rw [List.flatMap_nil, List.append_nil]
      exact h
  | cons entry rest ih =>
      rw [List.flatMap_cons, ← List.append_assoc]
      rcases entry.2.bounds_cases with ⟨hempty, hnone⟩ | ⟨plane, hplane, hencloses⟩
      · rw [List.filterMap_cons_none (f := fun entry : α × Layer α => entry.2.bounds) hnone, hempty,
          List.append_nil]
        exact ih h
      · rw [List.filterMap_cons_some (f := fun entry : α × Layer α => entry.2.bounds) hplane]
        exact ih (h.merged hencloses)

theorem exists_layerPlane {entries : List (α × Layer α)}
    (h : entries.flatMap (fun entry => entry.2.points) ≠ []) :
    ∃ plane, reduce? Box2.merged (entries.filterMap fun entry => entry.2.bounds) = some plane ∧
      plane.Encloses (entries.flatMap fun entry => entry.2.points) := by
  induction entries with
  | nil => exact absurd rfl h
  | cons entry rest ih =>
      rw [List.flatMap_cons] at h ⊢
      rcases entry.2.bounds_cases with ⟨hempty, hnone⟩ | ⟨plane, hplane, hencloses⟩
      · rw [hempty, List.nil_append] at h ⊢
        rw [List.filterMap_cons_none (f := fun entry : α × Layer α => entry.2.bounds) hnone]
        exact ih h
      · rw [List.filterMap_cons_some (f := fun entry : α × Layer α => entry.2.bounds) hplane]
        exact ⟨_, rfl, encloses_foldl_merged hencloses rest⟩

theorem le_highest (hentry : entry ∈ model.layers) (hz : IsNumber entry.1) :
    entry.1 ≤ (model.layers.map (·.1)).foldl Scalar.max 0 := by
  apply foldl_holds (fun high => entry.1 ≤ high) (entry.1 = ·)
  · intro high z hle
    exact le_trans hle (left_le_max z (isNumber_right_of_le hle))
  · rintro high z rfl
    exact right_le_max high hz
  · exact Or.inr ⟨entry.1, List.mem_map_of_mem hentry, rfl⟩

theorem exists_layerBounds (hentry : entry ∈ model.layers) (hp : p ∈ entry.2.points) :
    ∃ box, model.layerBounds? = some box ∧
      (box.Contains ⟨p.x, p.y, entry.1⟩ ↔ (IsNumber entry.1 → 0 ≤ entry.1)) := by
  have hmem : p ∈ model.layers.flatMap fun entry => entry.2.points :=
    List.mem_flatMap.mpr ⟨entry, hentry, hp⟩
  rcases exists_layerPlane (List.ne_nil_of_mem hmem) with ⟨plane, hplane, hencloses⟩
  refine ⟨_, by rw [layerBounds_eq, hplane]; rfl, ?_⟩
  rw [Box3.contains_ofPlanar_iff]
  constructor
  · rintro ⟨_, hz⟩ hnumber
    exact (hz hnumber).1
  · intro h
    exact ⟨hencloses.contains hmem, fun hnumber => ⟨h hnumber, le_highest hentry hnumber⟩⟩

theorem exists_primingBounds (hpriming : model.priming = some entry) (hp : p ∈ entry.2.points) :
    ∃ box, model.primingBounds? = some box ∧ box.Contains ⟨p.x, p.y, entry.1⟩ := by
  rcases entry.2.bounds_cases with ⟨hempty, _⟩ | ⟨plane, hplane, hencloses⟩
  · rw [hempty] at hp
    cases hp
  · refine ⟨_, by rw [primingBounds_eq hpriming, hplane]; rfl, ?_⟩
    rw [Box3.contains_ofPlanar_iff]
    exact ⟨hencloses.contains hp, (between_self entry.1).widen_left 0 0⟩

end

structure BoundsRule (model : Model Float) : Prop where
  /-- A point of a layer is inside exactly if it is not below the bed. -/
  layers : ∀ entry ∈ model.layers, ∀ p ∈ entry.2.points,
    ((model.bounds false).Contains ⟨p.x, p.y, entry.1⟩ ↔ ¬ entry.1 < 0)
  bed : (model.bounds false).min.z = 0
  larger : ∀ entry ∈ model.layers, ∀ p ∈ entry.2.points, ¬ entry.1 < 0 →
    (model.bounds true).Contains ⟨p.x, p.y, entry.1⟩
  priming : ∀ entry, model.priming = some entry → ∀ p ∈ entry.2.points,
    (model.bounds true).Contains ⟨p.x, p.y, entry.1⟩

theorem bounds_false_of_layerBounds {model : Model Float} {box : Box3 Float}
    (h : model.layerBounds? = some box) : model.bounds false = box := by
  show model.layerBounds?.getD 0 = box
  rw [h]
  rfl

theorem contains_bounds_true {model : Model Float} {p : Point3 Float}
    (h : (∃ box, model.layerBounds? = some box ∧ box.Contains p) ∨
      ∃ box, model.primingBounds? = some box ∧ box.Contains p) :
    (model.bounds true).Contains p := by
  unfold bounds
  rw [if_pos rfl]
  rcases h with ⟨box, hbox, hcontains⟩ | ⟨box, hbox, hcontains⟩
  · rw [hbox]
    cases model.primingBounds? with
    | none => exact hcontains
    | some other => exact hcontains.merged_left other
  · rw [hbox]
    cases model.layerBounds? with
    | none => exact hcontains
    | some other => exact hcontains.merged_right other

theorem nonneg_iff_not_neg {z : Float} : (IsNumber z → 0 ≤ z) ↔ ¬ z < 0 := by
  constructor
  · intro h hneg
    exact not_lt_of_le (h (LawfulOrder.lt_iff.mp hneg).1) hneg
  · intro h hz
    exact le_of_not_lt isNumber_zero_float hz h

theorem contains_bounds_false_iff {model : Model Float} {entry : Float × Layer Float}
    {p : Vec2 Float} (hentry : entry ∈ model.layers) (hp : p ∈ entry.2.points) :
    (model.bounds false).Contains ⟨p.x, p.y, entry.1⟩ ↔ ¬ entry.1 < 0 := by
  rcases exists_layerBounds hentry hp with ⟨box, hbox, hiff⟩
  rw [bounds_false_of_layerBounds hbox, hiff, nonneg_iff_not_neg]

theorem boundsRule (model : Model Float) : BoundsRule model where
  layers := by
    intro entry hentry p hp
    exact contains_bounds_false_iff hentry hp
  bed := by
    show (model.layerBounds?.getD 0).min.z = 0
    rw [layerBounds_eq]
    cases reduce? Box2.merged (model.layers.filterMap fun entry => entry.2.bounds) <;> rfl
  larger := by
    intro entry hentry p hp hz
    rcases exists_layerBounds hentry hp with ⟨box, hbox, hiff⟩
    exact contains_bounds_true (Or.inl ⟨box, hbox, hiff.mpr (nonneg_iff_not_neg.mpr hz)⟩)
  priming := by
    intro entry hpriming p hp
    rcases exists_primingBounds hpriming hp with ⟨box, hbox, hcontains⟩
    exact contains_bounds_true (Or.inr ⟨box, hbox, hcontains⟩)

/-!
# Models that were built
-/

theorem mem_layers_toModel {builder : Builder Float} {entry : Float × Draft Float}
    (h : entry ∈ builder.print.layers.entries) :
    (entry.1, entry.2.finish builder.padding) ∈ builder.toModel.layers :=
  List.mem_mergeSort.mpr (List.mem_map.mpr ⟨entry, List.mem_reverse.mpr h, rfl⟩)

/-- A padded point of a print is inside the box of the model exactly if its layer is
not below the bed. -/
theorem contains_bounds_toModel_iff {builder : Builder Float} {entry : Float × Draft Float}
    {p : Vec2 Float} (h : entry ∈ builder.print.layers.entries)
    (hp : p ∈ (entry.2.finish builder.padding).points) :
    (builder.toModel.bounds false).Contains ⟨p.x, p.y, entry.1⟩ ↔ ¬ entry.1 < 0 :=
  @contains_bounds_false_iff _ (entry.1, entry.2.finish builder.padding) p (mem_layers_toModel h) hp

def sinking : List (Instruction Float) :=
  [.straight 1 none (some (-1)) none, .straight 2 (some 10) none (some 1)]

def sunken : Builder Float :=
  (Builder.new .default).replay sinking

theorem below_bed_outside_bounds :
    ∃ model, Model.ofInstructions .default sinking = .ok model ∧
      ∃ entry ∈ model.layers, ∃ p ∈ entry.2.points,
        IsNumber p.x ∧ IsNumber p.y ∧ IsNumber entry.1 ∧
          ¬ (model.bounds false).Contains ⟨p.x, p.y, entry.1⟩ := by
  have hvalid : (BuildSettings.default : BuildSettings Float).validate = .ok () := by
    decide +kernel
  have hrun : (Builder.new .default).handleAll sinking = .ok sunken := rfl
  have hbuilt : Model.ofInstructions .default sinking = .ok sunken.toModel := by
    rw [Build.ofInstructions_eq hvalid, hrun]
    rfl
  have houtside : (sunken.toModel.layers.any fun entry => entry.2.points.any fun p =>
      p.x == p.x && p.y == p.y && entry.1 == entry.1 &&
        !decide ((sunken.toModel.bounds false).min.z ≤ entry.1)) = true := by
    decide +kernel
  simp only [List.any_eq_true, Bool.and_eq_true, Bool.not_eq_true', decide_eq_false_iff_not]
    at houtside
  rcases houtside with ⟨entry, hentry, p, hp, ⟨⟨hx, hy⟩, hz⟩, hbelow⟩
  refine ⟨_, hbuilt, entry, hentry, p, hp, hx, hy, hz, ?_⟩
  rintro ⟨_, _, hcontained⟩
  exact hbelow (hcontained hz).1

end Model
end Extrusion
