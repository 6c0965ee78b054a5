import Extrusion.Layer.Statistics
import Extrusion.Model
import Extrusion.Proofs.Scalar.Real

/-!
# Statistics of samples

The extreme values of some samples occur among them, and no sample lies beyond.
Extreme values of groups of samples combine to those of all samples.  In exact
arithmetic the average is the mean, which lies between the extreme values.
-/

namespace Extrusion

open Scalar

section

variable {α : Type} [Scalar α]

/-!
# Extreme values
-/

/-- The smallest and the largest of some scalars, as far as there are any. -/
inductive Scalar.Ranges : Option α → Option α → List α → Prop where
  | empty : Ranges none none []
  | spans {low high : α} {xs : List α} (h : Spans low high xs) : Ranges (some low) (some high) xs

theorem Scalar.Spans.congr {low high : α} {xs ys : List α} (h : Spans low high xs)
    (hsame : ∀ x, x ∈ xs ↔ x ∈ ys) : Spans low high ys where
  between x hx := h.between x ((hsame x).mpr hx)
  low_mem := (hsame low).mp h.low_mem
  high_mem := (hsame high).mp h.high_mem

theorem Scalar.Ranges.congr {low? high? : Option α} {xs ys : List α} (h : Ranges low? high? xs)
    (hsame : ∀ x, x ∈ xs ↔ x ∈ ys) : Ranges low? high? ys := by
  cases h with
  | empty =>
      cases ys with
      | nil => exact .empty
      | cons y ys => exact absurd ((hsame y).mpr List.mem_cons_self) List.not_mem_nil
  | spans h => exact .spans (h.congr hsame)

theorem Scalar.Ranges.eq_none_iff {low? high? : Option α} {xs : List α}
    (h : Ranges low? high? xs) : (low? = none ↔ xs = []) ∧ (high? = none ↔ xs = []) := by
  cases h with
  | empty => simp
  | spans h =>
      have hne := List.ne_nil_of_mem h.low_mem
      simp [hne]

theorem Scalar.Ranges.exists_spans {low? high? : Option α} {xs : List α}
    (h : Ranges low? high? xs) (hne : xs ≠ []) :
    ∃ low high, low? = some low ∧ high? = some high ∧ Spans low high xs := by
  cases h with
  | empty => exact absurd rfl hne
  | spans h => exact ⟨_, _, rfl, rfl, h⟩

variable [LawfulBounds α]

theorem Scalar.Spans.foldl {β : Type} {lowOf highOf : β → α} {all : List β}
    {groups : List (List α)}
    (hall : List.Forall₂ (fun b group => Spans (lowOf b) (highOf b) group) all groups)
    {low high : α} {xs : List α} (h : Spans low high xs) :
    Spans ((all.map lowOf).foldl Scalar.min low) ((all.map highOf).foldl Scalar.max high)
      (xs ++ groups.flatten) := by
  induction hall generalizing low high xs with
  | nil =>
      rw [List.flatten_nil, List.append_nil]
      exact h
  | cons hfirst hrest ih =>
      rw [List.flatten_cons, ← List.append_assoc]
      exact ih (h.append hfirst)

theorem Scalar.Spans.foldl_self {low high : α} {xs : List α} (h : Spans low high xs)
    (rest : List α) :
    Spans (rest.foldl Scalar.min low) (rest.foldl Scalar.max high) (xs ++ rest) := by
  have hall : List.Forall₂ (fun b group => Spans (id b) (id b) group) rest
      (rest.map fun x => [x]) := by
    rw [List.forall₂_map_right_iff, List.forall₂_same]
    intro x _
    exact spans_singleton x
  have hfold := h.foldl hall
  rw [List.map_id, ← List.flatMap_def, List.flatMap_singleton'] at hfold
  exact hfold

theorem Scalar.ranges_reduce_self (xs : List α) :
    Ranges (reduce? Scalar.min xs) (reduce? Scalar.max xs) xs := by
  cases xs with
  | nil => exact .empty
  | cons first rest => exact .spans ((spans_singleton first).foldl_self rest)

/-!
# Statistics
-/

def SampleStats.Covers (stats : SampleStats α) (samples : List α) : Prop :=
  Spans stats.min stats.max samples

theorem SampleStats.exists_ofSamples {samples : List α} (h : samples ≠ []) :
    ∃ stats, ofSamples samples = some stats ∧ stats.Covers samples := by
  cases samples with
  | nil => exact absurd rfl h
  | cons first rest => exact ⟨_, rfl, (spans_singleton first).foldl_self rest⟩

theorem SampleStats.ranges_reduce {all : List (SampleStats α)} {groups : List (List α)}
    (h : List.Forall₂ SampleStats.Covers all groups) :
    Ranges (reduce? Scalar.min (all.map (·.min))) (reduce? Scalar.max (all.map (·.max)))
      groups.flatten := by
  cases h with
  | nil => exact .empty
  | cons hfirst hrest => exact .spans (Spans.foldl hrest hfirst)

end

/-!
# Averages
-/

section

variable {α : Type} [Scalar α]

def Scalar.mean (samples : List α) : α :=
  samples.sum / Scalar.ofNat samples.length

structure SampleStats.Averages (stats : SampleStats α) (samples : List α) : Prop where
  mean : stats.avg = Scalar.mean samples
  low : stats.min ≤ stats.avg
  high : stats.avg ≤ stats.max

end

theorem foldl_add_real (start : ℝ) (xs : List ℝ) : xs.foldl (· + ·) start = start + xs.sum := by
  induction xs generalizing start with
  | nil => exact (add_zero start).symm
  | cons x xs ih => rw [List.foldl_cons, ih, List.sum_cons, add_assoc]

theorem Scalar.Spans.mean_real {low high : ℝ} {xs : List ℝ} (h : Spans low high xs) :
    low ≤ Scalar.mean xs ∧ Scalar.mean xs ≤ high := by
  have hlength : (0 : ℝ) < xs.length := by
    exact_mod_cast List.length_pos_of_mem h.low_mem
  have hlow := List.card_nsmul_le_sum xs low fun x hx => h.isLeast.2 hx
  have hhigh := List.sum_le_card_nsmul xs high fun x hx => h.isGreatest.2 hx
  rw [nsmul_eq_mul] at hlow hhigh
  constructor
  · exact (le_div_iff₀' hlength).mpr hlow
  · exact (div_le_iff₀' hlength).mpr hhigh

theorem SampleStats.averages_ofSamples {samples : List ℝ} {stats : SampleStats ℝ}
    (h : ofSamples samples = some stats) (hcovers : stats.Covers samples) :
    stats.Averages samples := by
  have hmean : stats.avg = Scalar.mean samples := by
    cases samples with
    | nil => cases h
    | cons first rest =>
        cases h
        show rest.foldl (· + ·) first / _ = (first :: rest).sum / _
        rw [foldl_add_real, List.sum_cons]
        rfl
  rcases hcovers.mean_real with ⟨hlow, hhigh⟩
  exact ⟨hmean, hmean ▸ hlow, hmean ▸ hhigh⟩

end Extrusion
