import Extrusion.Proofs.Builder.Step

/-!
# The priming layer

A print makes at most one layer the priming layer.  That layer was the only one,
it is never touched again, and the layer that is started instead stays the
lowest one.
-/

namespace Extrusion
namespace Print

open Scalar LayerStack

variable {α : Type} [Scalar α]

/-- A deposition at a height would make the layer at another height the priming
layer. -/
def Demotes (print : Print α) (z height : α) : Prop :=
  ∃ descent, print.descent.resolve z (print.layers.contains z) print.layers.size =
    .ok (.demoting height, descent)

theorem demotes_iff {print : Print α} {z height : α} :
    print.Demotes z height ↔
      print.layers.contains z = false ∧ z < print.descent.lastHeight ∧
        print.descent.primed = false ∧ print.layers.size = 1 ∧
        height = print.descent.lastHeight := by
  unfold Demotes
  rw [Descent.resolve_eq]
  cases hknown : print.layers.contains z with
  | true => simp
  | false =>
      by_cases hlt : z < print.descent.lastHeight
      · by_cases hprimed : print.descent.primed = true
        · simp [hlt, hprimed]
        · by_cases hmany : 1 < print.layers.size
          · have hone : print.layers.size ≠ 1 := by omega
            simp [hlt, hprimed, hmany, hone]
          · by_cases hnone : print.layers.size = 0
            · simp [hlt, hprimed, hnone]
            · have hone : print.layers.size = 1 := by omega
              simp [hlt, hprimed, hone, eq_comm]
      · simp [hlt]

theorem demotes_of_single [LawfulOrder α] {print : Print α} {z : α} {draft : Draft α}
    (hsingle : print.layers.entries = [(key print.descent.lastHeight, draft)])
    (hlt : z < print.descent.lastHeight) (h : print.Consistent) (hpriming : print.priming = none) :
    print.Demotes z print.descent.lastHeight := by
  refine demotes_iff.mpr ⟨?_, hlt, ?_, ?_, rfl⟩
  · rw [Bool.eq_false_iff]
    intro hknown
    rcases contains_iff.mp hknown with ⟨entry, hmem, hkey⟩
    rw [hsingle, List.mem_singleton] at hmem
    subst entry
    have hself : key z < key print.descent.lastHeight := add_zero_lt_add_zero_iff.mpr hlt
    rw [show key print.descent.lastHeight = key z from hkey] at hself
    exact lt_irrefl _ hself
  · rw [h.primed, hpriming]
    rfl
  · simp [size, hsingle]

theorem not_demotes_of_priming {print : Print α} (h : print.Consistent)
    {layer : α × Draft α} (hpriming : print.priming = some layer) (z height : α) :
    ¬ print.Demotes z height := by
  intro hdemotes
  have hunprimed := (demotes_iff.mp hdemotes).2.2.1
  rw [h.primed, hpriming] at hunprimed
  cases hunprimed

theorem add_of_demotes [LawfulOrder α] {print : Print α} (h : print.Consistent)
    {deposition : Deposition α} {height : α} (hdemotes : print.Demotes deposition.height height) :
    ∃ draft, print.layers.entries = [(key height, draft)] ∧
      deposition.height < height ∧ print.priming = none ∧
      print.add deposition = .ok
        { layers := ⟨[(key deposition.height, taking deposition .empty)]⟩
          priming := some (height, draft)
          descent := ⟨deposition.height, true⟩ } := by
  rcases demotes_iff.mp hdemotes with ⟨hnew, hlt, hunprimed, hone, rfl⟩
  rcases single_of_size h (by omega) (by omega) with ⟨draft, hsingle⟩
  have hpriming : print.priming = none := by
    rw [h.primed] at hunprimed
    simpa using hunprimed
  refine ⟨draft, hsingle, hlt, hpriming, ?_⟩
  rw [add_eq, Descent.resolve_eq, hnew, if_neg (by simp), if_pos hlt, if_neg (by simp [hunprimed]),
    if_neg (by omega), if_neg (by omega)]
  simp only [demote_single hsingle, update_empty]

end Print

namespace Builder

open Scalar LayerStack

variable {α : Type} [Scalar α]

structure PrimingRule (builder : Builder α) : Prop where
  descending : builder.print.layers.entries.Pairwise fun a b => b.1 < a.1
  primed : builder.print.descent.primed = true ↔ builder.print.priming.isSome = true
  last : builder.print.layers.entries ≠ [] →
    ∃ entry ∈ builder.print.layers.entries,
      (entry.1 == builder.print.descent.lastHeight) = true
  demotion : ∀ deposition height, builder.print.Demotes deposition.height height →
    ∃ draft, builder.print.layers.entries = [(key height, draft)] ∧
      deposition.height < height ∧ builder.print.priming = none ∧
      builder.print.add deposition = .ok
        { layers := ⟨[(key deposition.height, Print.taking deposition .empty)]⟩
          priming := some (height, draft)
          descent := ⟨deposition.height, true⟩ }
  once : ∀ layer, builder.print.priming = some layer → ∀ later,
    (builder.replay later).print.priming = some layer ∧
      ∀ z height, ¬ (builder.replay later).print.Demotes z height
  lowest : ∀ low later, builder.print.layers.lowest? = some low →
    (builder.replay later).print.priming = builder.print.priming →
      (builder.replay later).print.layers.lowest? = some low
  /-- From a demotion on, the height that caused it is the lowest one. -/
  trigger : ∀ instruction height draft, builder.print.priming = none →
    (builder.handle instruction).1.print.priming = some (height, draft) →
      builder.print.layers.entries = [(key height, draft)] ∧
      builder.heightAfter instruction < height ∧
      ∀ later, ((builder.handle instruction).1.replay later).print.layers.lowest? =
        some (key (builder.heightAfter instruction))

variable [LawfulOrder α] {builder : Builder α}

/-!
# What an instruction keeps
-/

theorem priming_handle (h : builder.print.Consistent) {layer : α × Draft α}
    (hpriming : builder.print.priming = some layer) (instruction : Instruction α) :
    (builder.handle instruction).1.print.priming = some layer := by
  rcases print_handle h instruction with heq | ⟨deposition, _, _, hstep⟩
  · rw [heq]
    exact hpriming
  · exact hstep.priming hpriming

theorem lowest_handle (h : builder.print.Consistent) (instruction : Instruction α)
    (hpriming : (builder.handle instruction).1.print.priming = builder.print.priming) {low : α}
    (hlow : builder.print.layers.lowest? = some low) :
    (builder.handle instruction).1.print.layers.lowest? = some low := by
  rcases print_handle h instruction with heq | ⟨deposition, hz, _, hstep⟩
  · rw [heq]
    exact hlow
  · exact hstep.lowest h hz hpriming hlow

theorem demotion_handle (h : builder.print.Consistent) (instruction : Instruction α)
    {height : α} {draft : Draft α} (hbefore : builder.print.priming = none)
    (hafter : (builder.handle instruction).1.print.priming = some (height, draft)) :
    builder.print.layers.entries = [(key height, draft)] ∧
      builder.heightAfter instruction < height ∧
      (builder.handle instruction).1.print.layers.lowest? =
        some (key (builder.heightAfter instruction)) := by
  rcases print_handle h instruction with heq | ⟨deposition, _, hheight, hstep⟩
  · rw [heq, hbefore] at hafter
    cases hafter
  · rw [← hheight]
    exact hstep.demotion hbefore hafter

/-!
# What a run keeps
-/

theorem priming_replay (h : builder.print.Consistent) {layer : α × Draft α}
    (hpriming : builder.print.priming = some layer) (instructions : List (Instruction α)) :
    (builder.replay instructions).print.priming = some layer := by
  induction instructions generalizing builder with
  | nil => exact hpriming
  | cons instruction rest ih =>
      exact ih (consistent_handle h instruction) (priming_handle h hpriming instruction)

theorem priming_handle_of_replay (h : builder.print.Consistent) {instruction : Instruction α}
    {rest : List (Instruction α)}
    (hpriming : (builder.replay (instruction :: rest)).print.priming = builder.print.priming) :
    (builder.handle instruction).1.print.priming = builder.print.priming := by
  rw [replay_cons] at hpriming
  cases hmiddle : (builder.handle instruction).1.print.priming with
  | some layer =>
      rw [← hpriming, priming_replay (consistent_handle h instruction) hmiddle rest]
  | none =>
      cases hbefore : builder.print.priming with
      | none => rfl
      | some layer =>
          rw [priming_handle h hbefore instruction] at hmiddle
          cases hmiddle

theorem lowest_replay (h : builder.print.Consistent) (instructions : List (Instruction α))
    (hpriming : (builder.replay instructions).print.priming = builder.print.priming) {low : α}
    (hlow : builder.print.layers.lowest? = some low) :
    (builder.replay instructions).print.layers.lowest? = some low := by
  induction instructions generalizing builder with
  | nil => exact hlow
  | cons instruction rest ih =>
      have hkept := priming_handle_of_replay h hpriming
      rw [replay_cons] at hpriming ⊢
      exact ih (consistent_handle h instruction) (hpriming.trans hkept.symm)
        (lowest_handle h instruction hkept hlow)

theorem primingRule_of_consistent (h : builder.print.Consistent) : PrimingRule builder where
  descending := h.layers.descending
  primed := by rw [h.primed]
  last := h.last
  demotion := by
    intro deposition height hdemotes
    exact Print.add_of_demotes h hdemotes
  once := by
    intro layer hpriming later
    have hlater := priming_replay h hpriming later
    exact ⟨hlater, Print.not_demotes_of_priming (consistent_replay h later) hlater⟩
  lowest := by
    intro low later hlow hpriming
    exact lowest_replay h later hpriming hlow
  trigger := by
    intro instruction height draft hbefore hafter
    have hnext := consistent_handle h instruction
    rcases demotion_handle h instruction hbefore hafter with ⟨hsingle, hlt, hlow⟩
    refine ⟨hsingle, hlt, fun later => lowest_replay hnext later ?_ hlow⟩
    rw [priming_replay hnext hafter later, hafter]

/-- The priming layer in every state that a builder reaches, also past failed
instructions. -/
theorem primingRule_replay_new (settings : BuildSettings Float)
    (instructions : List (Instruction Float)) :
    PrimingRule ((Builder.new settings).replay instructions) :=
  primingRule_of_consistent (consistent_replay_new settings instructions)

end Builder
end Extrusion
