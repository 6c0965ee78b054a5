import Extrusion.Model.Summary
import Extrusion.Proofs.Model.Shape
import Extrusion.Proofs.Scalar.Bounds

/-!
# Numbers of layers

A model keeps the same layers in whatever order they are handed to it, provided that no
two have the same height.  A number stands for the layer whose height comes at that
place among all heights, and every way to ask for a layer by its number describes that
one.
-/

namespace Extrusion

open Scalar

variable {α : Type}

namespace Model

/-!
# Order of the layers
-/

section

variable [Scalar α] [LawfulOrder α] {layers : List (α × Layer α)}

theorem sorted_new (layers : List (α × Layer α)) (priming : Option (α × Layer α)) (nozzle : α) :
    (new layers priming nozzle).layers.Pairwise fun a b => order a.1 b.1 ≠ .gt := by
  have hsorted : (new layers priming nozzle).layers.Pairwise fun a b =>
      (order a.1 b.1 != .gt) = true := by
    apply List.pairwise_mergeSort
    · intro a b c hab hbc
      exact bne_iff_ne.mpr (order_trans_of_ne_gt (bne_iff_ne.mp hab) (bne_iff_ne.mp hbc))
    · intro a b
      rw [Bool.or_eq_true]
      exact (order_ne_gt_total a.1 b.1).imp bne_iff_ne.mpr bne_iff_ne.mpr
  exact hsorted.imp bne_iff_ne.mp

theorem perm_new {α : Type} [Scalar α] (layers : List (α × Layer α))
    (priming : Option (α × Layer α)) (nozzle : α) : (new layers priming nozzle).layers.Perm layers :=
  List.mergeSort_perm layers _

/-- Layers that all differ in height can be sorted in one way only. -/
theorem new_eq_of_perm {other : List (α × Layer α)} (hdistinct : (layers.map (·.1)).Nodup)
    (hperm : other.Perm layers) (priming : Option (α × Layer α)) (nozzle : α) :
    new other priming nozzle = new layers priming nozzle := by
  have hlayers : (new other priming nozzle).layers = (new layers priming nozzle).layers := by
    apply List.Perm.eq_of_pairwise _ (sorted_new other priming nozzle)
      (sorted_new layers priming nozzle)
    · exact (perm_new other priming nozzle).trans
        (hperm.trans (perm_new layers priming nozzle).symm)
    · intro a b ha hb hab hba
      exact List.inj_on_of_nodup_map hdistinct
        (hperm.mem_iff.mp ((perm_new other priming nozzle).mem_iff.mp ha))
        ((perm_new layers priming nozzle).mem_iff.mp hb) (eq_of_order_ne_gt hab hba)
  show Model.mk (new other priming nozzle).layers priming nozzle = new layers priming nozzle
  rw [hlayers]
  rfl

end

/-!
# Layers at a number
-/

section

variable {model : Model α} {index : Nat} {entry : α × Layer α}

theorem nth_eq_some_iff :
    model.nth? index = some entry ↔
      ∃ lower upper, model.layers = lower ++ entry :: upper ∧ index = lower.length + 1 := by
  unfold nth?
  cases index with
  | zero => simp
  | succ position =>
      rw [if_neg (Nat.succ_ne_zero position), Nat.add_sub_cancel, List.getElem?_eq_some_iff]
      constructor
      · rintro ⟨bound, rfl⟩
        refine ⟨model.layers.take position, model.layers.drop (position + 1), ?_, ?_⟩
        · rw [List.getElem_cons_drop, List.take_append_drop]
        · rw [List.length_take_of_le (Nat.le_of_lt bound)]
      · rintro ⟨lower, upper, hlayers, hindex⟩
        have hposition : position = lower.length := Nat.succ.inj hindex
        subst hposition
        refine ⟨by rw [hlayers]; simp, by simp [hlayers]⟩

theorem isSome_nth_iff :
    (model.nth? index).isSome = true ↔ 1 ≤ index ∧ index ≤ model.layerCount := by
  refine Iff.trans ?_ isSome_layerZ_iff
  unfold layerZ?
  rw [Option.isSome_map]

end

/-- How thick a layer at some number and height is: the first one as thick as it is high,
and any other as its distance to the layer below, in whole micrometres. -/
inductive Thick [Scalar α] (model : Model α) : Nat → α → α → Prop where
  | first (z : α) : Thick model 1 z z
  | above {index : Nat} {below : α} (z : α) (hbelow : model.layerZ? index = some below) :
      Thick model (index + 1) z (toMicrometres (z - below))

structure Describes [Scalar α] (model : Model α) (index : Nat) (entry : α × Layer α)
    (thickness : α) : Prop where
  layer : model.layer? index = some entry.2
  z : model.layerZ? index = some entry.1
  height : model.layerHeight? index = some thickness
  thick : model.Thick index entry.1 thickness
  summary : model.summary.layer? index =
    some ⟨index, entry.1, thickness, entry.2.paths.size, entry.2.pointCount,
      entry.2.temperature, entry.2.feedrate⟩

section

variable [Scalar α] {model : Model α} {index : Nat} {entry : α × Layer α}

theorem layerZ_of_nth {α : Type} {model : Model α} {entry : α × Layer α}
    (h : model.nth? index = some entry) :
    model.layerZ? index = some entry.1 := by
  unfold layerZ?
  rw [h]
  rfl

theorem layerHeight_one (model : Model α) : model.layerHeight? 1 = model.layerZ? 1 := by
  unfold layerHeight?
  cases model.layerZ? 1 with
  | none => rfl
  | some z => rfl

theorem layerHeight_above {below z : α} (hbelow : model.layerZ? index = some below)
    (hz : model.layerZ? (index + 1) = some z) :
    model.layerHeight? (index + 1) = some (toMicrometres (z - below)) := by
  have hpos : 1 ≤ index := (isSome_layerZ_iff.mp (Option.isSome_of_eq_some hbelow)).1
  unfold layerHeight?
  rw [hz, Nat.add_sub_cancel, hbelow]
  show (if index + 1 = 1 then some z else some (toMicrometres (z - below))) = _
  rw [if_neg (by omega)]

theorem exists_layerZ {α : Type} {model : Model α} {index : Nat} (hpos : 1 ≤ index)
    (hle : index ≤ model.layerCount) : ∃ z, model.layerZ? index = some z :=
  Option.isSome_iff_exists.mp (isSome_layerZ_iff.mpr ⟨hpos, hle⟩)

theorem exists_layerZ_below {α : Type} {model : Model α} {index : Nat} {z : α} (hpos : 1 ≤ index)
    (hz : model.layerZ? (index + 1) = some z) : ∃ below, model.layerZ? index = some below := by
  have hle := (isSome_layerZ_iff.mp (Option.isSome_of_eq_some hz)).2
  exact exists_layerZ hpos (Nat.le_of_succ_le hle)

theorem exists_thick (h : model.nth? index = some entry) :
    ∃ thickness, model.layerHeight? index = some thickness ∧
      model.Thick index entry.1 thickness := by
  have hz := layerZ_of_nth h
  have hpos := (isSome_nth_iff.mp (Option.isSome_of_eq_some h)).1
  rcases Nat.eq_or_lt_of_le hpos with rfl | hlt
  · exact ⟨_, (layerHeight_one model).trans hz, .first entry.1⟩
  · obtain ⟨lower, rfl⟩ : ∃ lower, index = lower + 1 := ⟨index - 1, by omega⟩
    obtain ⟨below, hbelow⟩ := exists_layerZ_below (Nat.le_of_lt_succ hlt) hz
    exact ⟨_, layerHeight_above hbelow hz, .above entry.1 hbelow⟩

theorem isSome_layerHeight_iff :
    (model.layerHeight? index).isSome = true ↔ 1 ≤ index ∧ index ≤ model.layerCount := by
  rw [← isSome_nth_iff]
  cases hentry : model.nth? index with
  | none =>
      unfold layerHeight? layerZ?
      rw [hentry]
      rfl
  | some entry =>
      obtain ⟨thickness, hheight, _⟩ := exists_thick hentry
      rw [hheight]
      exact Iff.rfl

/-- The summary numbers the layers as the model does. -/
theorem summary_layer_eq (model : Model α) (index : Nat) :
    model.summary.layer? index =
      (model.nth? index).map fun entry => model.summarizeLayer index entry.1 entry.2 := by
  unfold Summary.layer? nth?
  cases index with
  | zero => rfl
  | succ position =>
      rw [if_neg (Nat.succ_ne_zero position), if_neg (Nat.succ_ne_zero position)]
      exact List.getElem?_mapIdx

theorem describes_of_nth (h : model.nth? index = some entry) :
    ∃ thickness, model.Describes index entry thickness := by
  obtain ⟨thickness, hheight, hthick⟩ := exists_thick h
  refine ⟨thickness, ?_, layerZ_of_nth h, hheight, hthick, ?_⟩
  · unfold layer?
    rw [h]
    rfl
  · rw [summary_layer_eq, h]
    unfold summarizeLayer
    rw [hheight]
    rfl

end

/-!
# Layers by height
-/

/-- An entry has the height that comes at a number when heights are counted from the
smallest one: fewer layers are lower, and at least as many are not higher. -/
structure IsNth [Scalar α] (layers : List (α × Layer α)) (index : Nat) (entry : α × Layer α) :
    Prop where
  mem : entry ∈ layers
  lower : layers.countP (fun other => other.1 < entry.1) < index
  notHigher : index ≤ layers.countP fun other => other.1 ≤ entry.1

section

variable [Scalar α]

theorem IsNth.of_perm {layers other : List (α × Layer α)} {index : Nat} {entry : α × Layer α}
    (h : IsNth layers index entry) (hperm : layers.Perm other) : IsNth other index entry where
  mem := hperm.mem_iff.mp h.mem
  lower := by
    rw [← hperm.countP_eq]
    exact h.lower
  notHigher := by
    rw [← hperm.countP_eq]
    exact h.notHigher

variable [LawfulBounds α]

theorem isNth_of_rising {lower upper : List (α × Layer α)} {entry : α × Layer α}
    (hentry : IsNumber entry.1)
    (h : (lower ++ entry :: upper).Pairwise fun a b => a.1 ≤ b.1) :
    IsNth (lower ++ entry :: upper) (lower.length + 1) entry := by
  rw [List.pairwise_append, List.pairwise_cons] at h
  obtain ⟨_, ⟨hupper, _⟩, hlower⟩ := h
  refine ⟨List.mem_append_right lower List.mem_cons_self, ?_, ?_⟩
  · have hnone : (entry :: upper).countP (fun other => decide (other.1 < entry.1)) = 0 := by
      rw [List.countP_eq_zero]
      intro other hother hlt
      have hlt' := of_decide_eq_true hlt
      rcases List.mem_cons.mp hother with rfl | hother
      · exact lt_irrefl _ hlt'
      · exact not_lt_of_le (hupper other hother) hlt'
    rw [List.countP_append, hnone]
    exact Nat.lt_succ_of_le List.countP_le_length
  · have hall : lower.countP (fun other => decide (other.1 ≤ entry.1)) = lower.length := by
      rw [List.countP_eq_length]
      intro other hother
      exact decide_eq_true (hlower other hother entry List.mem_cons_self)
    have hself : (entry :: upper).countP (fun other => decide (other.1 ≤ entry.1)) =
        upper.countP (fun other => decide (other.1 ≤ entry.1)) + 1 :=
      List.countP_cons_of_pos (decide_eq_true hentry.le_refl)
    rw [List.countP_append, hall, hself]
    omega

end

theorem isNth_of_nth {layers : List (Float × Layer Float)}
    {priming : Option (Float × Layer Float)} {nozzle : Float} {index : Nat}
    {entry : Float × Layer Float} (hnumber : ∀ entry ∈ layers, IsNumber entry.1)
    (h : (new layers priming nozzle).nth? index = some entry) : IsNth layers index entry := by
  have hperm := perm_new layers priming nozzle
  have hsorted : (new layers priming nozzle).layers.Pairwise fun a b => a.1 ≤ b.1 := by
    refine (sorted_new layers priming nozzle).imp_of_mem ?_
    intro a b ha hb
    exact le_of_order_ne_gt (hnumber a (hperm.mem_iff.mp ha)) (hnumber b (hperm.mem_iff.mp hb))
  obtain ⟨lower, upper, hlayers, rfl⟩ := nth_eq_some_iff.mp h
  rw [hlayers] at hperm hsorted
  have hentry : entry ∈ layers :=
    hperm.mem_iff.mp (List.mem_append_right lower List.mem_cons_self)
  exact (isNth_of_rising (hnumber entry hentry) hsorted).of_perm hperm

/-!
# Models of layers
-/

structure Numbered (model : Model Float) (layers : List (Float × Layer Float)) : Prop where
  count : model.layerCount = layers.length
  layer : ∀ index, (model.layer? index).isSome = true ↔ 1 ≤ index ∧ index ≤ model.layerCount
  z : ∀ index, (model.layerZ? index).isSome = true ↔ 1 ≤ index ∧ index ≤ model.layerCount
  height : ∀ index,
    (model.layerHeight? index).isSome = true ↔ 1 ≤ index ∧ index ≤ model.layerCount
  summary : ∀ index,
    (model.summary.layer? index).isSome = true ↔ 1 ≤ index ∧ index ≤ model.layerCount
  described : ∀ index, 1 ≤ index → index ≤ model.layerCount →
    ∃ entry thickness, IsNth layers index entry ∧ model.Describes index entry thickness

theorem numbered_new {layers : List (Float × Layer Float)}
    (hnumber : ∀ entry ∈ layers, IsNumber entry.1) (priming : Option (Float × Layer Float))
    (nozzle : Float) : (new layers priming nozzle).Numbered layers where
  count := (perm_new layers priming nozzle).length_eq
  layer := by
    intro index
    unfold layer?
    rw [Option.isSome_map]
    exact isSome_nth_iff
  z := by
    intro index
    exact isSome_layerZ_iff
  height := by
    intro index
    exact isSome_layerHeight_iff
  summary := by
    intro index
    rw [summary_layer_eq, Option.isSome_map]
    exact isSome_nth_iff
  described := by
    intro index hpos hle
    obtain ⟨entry, hentry⟩ := Option.isSome_iff_exists.mp (isSome_nth_iff.mpr ⟨hpos, hle⟩)
    obtain ⟨thickness, hdescribes⟩ := describes_of_nth hentry
    exact ⟨entry, thickness, isNth_of_nth hnumber hentry, hdescribes⟩

/-- What models make of some layers, with any priming layer and any nozzle. -/
structure NumberingRule (layers : List (Float × Layer Float)) : Prop where
  permuted : ∀ other : List (Float × Layer Float), other.Perm layers → ∀ priming nozzle,
    new other priming nozzle = new layers priming nozzle
  numbered : ∀ priming nozzle, (new layers priming nozzle).Numbered layers

/-- No height may occur twice.  The zeros of both signs are two heights here, so that layers
whose heights compare as different are among those that the rule is about. -/
theorem numberingRule {layers : List (Float × Layer Float)}
    (hnumber : ∀ entry ∈ layers, IsNumber entry.1) (hdistinct : (layers.map (·.1)).Nodup) :
    NumberingRule layers where
  permuted := by
    intro other hperm priming nozzle
    exact new_eq_of_perm hdistinct hperm priming nozzle
  numbered := by
    intro priming nozzle
    exact numbered_new hnumber priming nozzle

/-- Layers that are handed over from the highest one down to one below the bed, with a
layer at either zero. -/
def descending : List (Float × Layer Float) :=
  [(2, .empty), (0, ⟨#[.new ⟨0, 0⟩ ⟨1, 0⟩], none, none⟩), (-0, .empty), (-1, .empty)]

theorem numberingRule_descending :
    (∀ entry ∈ descending, IsNumber entry.1) ∧ (descending.map (·.1)).Nodup ∧
      NumberingRule descending := by
  have hequal : (descending.all fun entry => entry.1 == entry.1) = true := by
    decide +kernel
  have hnumber : ∀ entry ∈ descending, IsNumber entry.1 := by
    intro entry hentry
    exact List.all_eq_true.mp hequal entry hentry
  have hdistinct : (descending.map (·.1)).Nodup := by
    decide +kernel
  exact ⟨hnumber, hdistinct, numberingRule hnumber hdistinct⟩

end Model
end Extrusion
