import Extrusion.Proofs.Arc.Polyline
import Extrusion.Proofs.Builder.Step
import Extrusion.Proofs.Layer.Trace

/-!
# Occupied layers

No layer of a print is empty.  A layer comes into being with a deposition, which
has two corners at least and so draws a path, and nothing that was drawn is ever
taken away.
-/

namespace Extrusion

open Scalar

variable {α : Type} [Scalar α]

/-!
# Drafts
-/

structure Draft.Occupied (draft : Draft α) : Prop where
  paths : draft.paths.toList ≠ []
  temperatures : draft.temperatures.toList ≠ []
  feedrates : draft.feedrates.toList ≠ []

theorem Layer.extend_ne_nil (paths : Array (Path α)) (source destination : Vec2 α) :
    (Layer.extend paths source destination).toList ≠ [] := by
  rcases toList_extend paths source destination with ⟨front, path, _, _, hextend⟩ | ⟨_, hextend⟩
  · rw [hextend]
    exact List.concat_ne_nil _ _
  · rw [hextend]
    exact List.concat_ne_nil _ _

theorem Draft.trace_ne_nil_of_ne_nil {paths : Array (Path α)} (h : paths.toList ≠ [])
    (corners : List (Vec2 α)) : (Draft.trace paths corners).toList ≠ [] := by
  induction corners generalizing paths with
  | nil => exact h
  | cons source rest ih =>
      cases rest with
      | nil => exact h
      | cons destination rest => exact ih (Layer.extend_ne_nil paths source destination)

theorem Draft.trace_ne_nil {corners : List (Vec2 α)} (h : 2 ≤ corners.length)
    (paths : Array (Path α)) : (Draft.trace paths corners).toList ≠ [] := by
  cases corners with
  | nil => cases h
  | cons source rest =>
      cases rest with
      | nil => cases Nat.le_of_succ_le_succ h
      | cons destination rest =>
          exact trace_ne_nil_of_ne_nil (Layer.extend_ne_nil paths source destination) _

theorem Draft.occupied_deposit {corners : List (Vec2 α)} (h : 2 ≤ corners.length)
    (draft : Draft α) (temperature feedrate : α) :
    (draft.deposit corners temperature feedrate).Occupied where
  paths := trace_ne_nil h draft.paths
  temperatures := by
    show (draft.temperatures.push temperature).toList ≠ []
    rw [Array.toList_push]
    exact List.concat_ne_nil _ _
  feedrates := by
    show (draft.feedrates.push feedrate).toList ≠ []
    rw [Array.toList_push]
    exact List.concat_ne_nil _ _

/-!
# Depositions
-/

theorem two_le_length_of_deposits {maxError : α} {before after : MachineState α}
    {command : Command α} {corners : List (Vec2 α)}
    (h : Deposits maxError before after command corners) : 2 ≤ corners.length := by
  cases h with
  | straight move level fed named => exact Nat.le_refl 2
  | curved move corners level fed polyline => exact Arc.two_le_length_polyline polyline

/-!
# Prints
-/

/-- Something was deposited in every layer, the priming layer included, whose
height is a number. -/
structure Print.Occupied (print : Print α) : Prop where
  layers : ∀ entry ∈ print.layers.entries, entry.2.Occupied
  priming : ∀ entry ∈ print.priming, IsNumber entry.1 ∧ entry.2.Occupied

theorem Print.occupied_empty : (Print.empty : Print α).Occupied where
  layers := by
    intro entry hentry
    cases hentry
  priming := by
    intro entry hentry
    cases hentry

variable [LawfulOrder α]

theorem LayerStack.occupied_update {stack : LayerStack α} (h : stack.WellFormed) {z : α}
    (hz : IsNumber z) {change : Draft α → Draft α} (hchange : ∀ draft, (change draft).Occupied)
    (hoccupied : ∀ entry ∈ stack.entries, entry.2.Occupied) :
    ∀ entry ∈ (stack.update z change).entries, entry.2.Occupied := by
  intro entry hentry
  rcases (changed_update h hz change).mem_cases hentry with
    ⟨hold, _⟩ | ⟨draft, _, rfl⟩ | ⟨_, rfl⟩
  · exact hoccupied entry hold
  · exact hchange draft
  · exact hchange .empty

theorem Print.Occupied.step {print next : Print α} {deposition : Deposition α}
    (h : print.Occupied) (hconsistent : print.Consistent) (hz : IsNumber deposition.height)
    (hcorners : 2 ≤ deposition.corners.length) (hstep : Step print deposition next) :
    next.Occupied := by
  have htaking : ∀ draft, (taking deposition draft).Occupied := by
    intro draft
    exact Draft.occupied_deposit hcorners draft _ _
  cases hstep with
  | again known =>
      exact ⟨LayerStack.occupied_update hconsistent.layers hz htaking h.layers, h.priming⟩
  | above new rising =>
      exact ⟨LayerStack.occupied_update hconsistent.layers hz htaking h.layers, h.priming⟩
  | below draft single falling unprimed =>
      constructor
      · intro entry hentry
        rw [List.mem_singleton.mp hentry]
        exact htaking .empty
      · intro entry hentry
        cases hentry
        have hdraft : draft.Occupied := h.layers _ (by rw [single]; exact List.mem_cons_self)
        -- The new layer lies below the demoted one, which a height that is no number rules out.
        exact ⟨isNumber_right_of_lt falling, hdraft⟩

/-!
# Runs
-/

theorem Builder.occupied_handle {builder : Builder α} (h : builder.print.Occupied)
    (hconsistent : builder.print.Consistent) (instruction : Instruction α) :
    (builder.handle instruction).1.print.Occupied := by
  cases herror : (builder.handle instruction).2 with
  | some error =>
      have hfailed : (builder.handle instruction).2 ≠ none := by
        rw [herror]
        exact Option.some_ne_none error
      rw [print_handle_of_failed hfailed]
      exact h
  | none =>
      rcases handle_accepted herror with ⟨_, _, ⟨_, hsame⟩ | ⟨corners, hdeposits, hadd⟩⟩
      · rw [hsame]
        exact h
      · have hz := Deposition.isNumber_of_deposits hdeposits
        exact h.step hconsistent hz (two_le_length_of_deposits hdeposits)
          (Print.step_of_add hconsistent hz hadd)

theorem Builder.occupied_replay {builder : Builder α} (h : builder.print.Occupied)
    (hconsistent : builder.print.Consistent) (instructions : List (Instruction α)) :
    (builder.replay instructions).print.Occupied := by
  induction instructions generalizing builder with
  | nil => exact h
  | cons instruction rest ih =>
      exact ih (occupied_handle h hconsistent instruction) (consistent_handle hconsistent instruction)

theorem Builder.occupied_replay_new (settings : BuildSettings α)
    (instructions : List (Instruction α)) :
    ((Builder.new settings).replay instructions).print.Occupied :=
  occupied_replay Print.occupied_empty Print.consistent_empty instructions

end Extrusion
