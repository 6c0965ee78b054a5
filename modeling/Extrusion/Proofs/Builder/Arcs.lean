import Extrusion.Proofs.Builder.Descent
import Extrusion.Proofs.Builder.Occupation
import Extrusion.Proofs.Layer.Joining

/-!
# Arcs of a builder

An arc that deposits fails if it is not centred.  Otherwise its polyline has a
bounded number of corners, and once it is accepted it lies in one path of its
layer: it continues the last path there where that ends at its source, and is a
path of its own otherwise.
-/

namespace Extrusion

open Scalar LayerStack

section

variable {α : Type} [Scalar α]

theorem Print.Step.exists_pathsAt [LawfulOrder α] {print next : Print α}
    {deposition : Deposition α} (h : print.Consistent) (hz : IsNumber deposition.height)
    (hstep : Print.Step print deposition next) :
    ∃ paths : Array (Path α), print.layers.pathsAt deposition.height = paths.toList ∧
      next.layers.pathsAt deposition.height =
        (Draft.trace paths deposition.corners).toList := by
  have hupdated := (changed_update h.layers hz (Print.taking deposition)).exists_pathsAt
  cases hstep with
  | again known =>
      rcases hupdated with ⟨draft, hbefore, hafter⟩
      exact ⟨draft.paths, hbefore, hafter⟩
  | above new rising =>
      rcases hupdated with ⟨draft, hbefore, hafter⟩
      exact ⟨draft.paths, hbefore, hafter⟩
  | below draft single falling unprimed =>
      have hnone : print.layers.pathsAt deposition.height = [] := by
        apply pathsAt_of_ne
        intro entry hmem
        rw [single, List.mem_singleton] at hmem
        subst entry
        exact Or.inr (lt_key_iff.mpr (key_lt_iff.mpr falling))
      exact ⟨#[], hnone, @pathsAt_append_cons α _ _ _ [] [] _ (by simp)⟩

theorem Print.Step.mem_of_mem [LawfulOrder α] {print next : Print α} {deposition : Deposition α}
    (h : print.Consistent) (hz : IsNumber deposition.height)
    (hstep : Print.Step print deposition next) {entry : α × Draft α}
    (hmem : entry ∈ next.layers.entries) :
    entry.1 = key deposition.height ∨ entry ∈ print.layers.entries := by
  have hchanged := changed_update h.layers hz (Print.taking deposition)
  cases hstep with
  | again known => exact hchanged.mem_of_mem hmem
  | above new rising => exact hchanged.mem_of_mem hmem
  | below draft single falling unprimed =>
      rw [List.mem_singleton.mp hmem]
      exact Or.inl rfl

end

namespace Builder

variable {α : Type} [Scalar α]

def arcOf (builder : Builder α) (move : ArcMove α) : Arc α :=
  Deposition.arcOf builder.machine.current (builder.machine.current.after (.arc move)) move

structure ArcRule (builder : Builder α) (lineNumber : Nat) (move : ArcMove α) : Prop where
  uncentred :
    IsDeposition builder.machine.current (builder.stateAfter ⟨lineNumber, .arc move⟩)
      (.arc move) →
    ¬ (builder.arcOf move).Centred →
      (builder.handle ⟨lineNumber, .arc move⟩).2 = some (.uncentredArc (builder.arcOf move))
  centred :
    IsDeposition builder.machine.current (builder.stateAfter ⟨lineNumber, .arc move⟩)
      (.arc move) →
    (builder.arcOf move).Centred →
      ∃ corners, (builder.arcOf move).polyline? builder.settings.arcMaxError = some corners ∧
        builder.DepositsAlong ⟨lineNumber, .arc move⟩ corners
  joined : ∀ corners, builder.DepositsAlong ⟨lineNumber, .arc move⟩ corners →
    (builder.handle ⟨lineNumber, .arc move⟩).2 = none → (∀ p ∈ corners, p.IsDefined) →
      Joined corners
        (builder.print.layers.pathsAt (builder.heightAfter ⟨lineNumber, .arc move⟩))
        ((builder.handle ⟨lineNumber, .arc move⟩).1.print.layers.pathsAt
          (builder.heightAfter ⟨lineNumber, .arc move⟩))
  edges : ∀ corners, builder.DepositsAlong ⟨lineNumber, .arc move⟩ corners →
    (builder.handle ⟨lineNumber, .arc move⟩).2 = none →
      ∃ drawn, List.Forall₂ DrawnAs drawn (Extrusion.edges corners) ∧
        pathEdges ((builder.handle ⟨lineNumber, .arc move⟩).1.print.layers.pathsAt
            (builder.heightAfter ⟨lineNumber, .arc move⟩)) =
          pathEdges (builder.print.layers.pathsAt
            (builder.heightAfter ⟨lineNumber, .arc move⟩)) ++ drawn
  others : ∀ corners, builder.DepositsAlong ⟨lineNumber, .arc move⟩ corners →
    (builder.handle ⟨lineNumber, .arc move⟩).2 = none →
      ∀ entry ∈ (builder.handle ⟨lineNumber, .arc move⟩).1.print.layers.entries,
        entry.1 = key (builder.heightAfter ⟨lineNumber, .arc move⟩) ∨
          entry ∈ builder.print.layers.entries

theorem handle_of_uncentred {builder : Builder α} (lineNumber : Nat) {move : ArcMove α}
    (hdeposition : IsDeposition builder.machine.current
      (builder.stateAfter ⟨lineNumber, .arc move⟩) (.arc move))
    (huncentred : ¬ (builder.arcOf move).Centred) :
    (builder.handle ⟨lineNumber, .arc move⟩).2 = some (.uncentredArc (builder.arcOf move)) := by
  have hextrudes : Deposition.extrudes builder.machine.current
      (builder.machine.current.after (.arc move)) = true :=
    (Deposition.extrudes_iff _ _).mpr hdeposition
  have hpolyline : (Deposition.arcOf builder.machine.current
      (builder.machine.current.after (.arc move)) move).polyline?
        builder.settings.arcMaxError = none := Arc.polyline?_eq_none_iff.mpr huncentred
  have hcollect : Deposition.ofCommand builder.settings.arcMaxError builder.machine.current
      (builder.machine.current.after (.arc move)) (.arc move) =
        .error (.uncentredArc (builder.arcOf move)) := by
    unfold Deposition.ofCommand Deposition.cornersOf
    simp only [hextrudes, if_true, hpolyline]
    rfl
  have hrun : builder.machine.run ⟨lineNumber, .arc move⟩ =
      .ok ⟨builder.machine.skipUnknown, builder.machine.current,
        builder.machine.current.after (.arc move)⟩ := rfl
  rw [handle_eq, hrun]
  simp only [collect_eq, hcollect]

theorem exists_depositsAlong_of_centred {builder : Builder α} (lineNumber : Nat)
    {move : ArcMove α}
    (hdeposition : IsDeposition builder.machine.current
      (builder.stateAfter ⟨lineNumber, .arc move⟩) (.arc move))
    (hcentred : (builder.arcOf move).Centred) :
    ∃ corners, (builder.arcOf move).polyline? builder.settings.arcMaxError = some corners ∧
      builder.DepositsAlong ⟨lineNumber, .arc move⟩ corners := by
  have hpolyline := Arc.polyline?_of_centred hcentred builder.settings.arcMaxError
  exact ⟨_, hpolyline, .curved move _ hdeposition.1 hdeposition.2 hpolyline⟩

theorem arcRule_of_consistent [LawfulOrder α] {builder : Builder α}
    (h : builder.print.Consistent) (lineNumber : Nat) (move : ArcMove α) :
    ArcRule builder lineNumber move where
  uncentred := handle_of_uncentred lineNumber
  centred := exists_depositsAlong_of_centred lineNumber
  joined := by
    intro corners hdeposits hok hdefined
    rcases (step_of_handle h hdeposits hok).exists_pathsAt h
      (Deposition.isNumber_of_deposits hdeposits) with ⟨paths, hbefore, hafter⟩
    have hjoined := joined_trace paths (two_le_length_of_deposits hdeposits) hdefined
    rw [← hbefore] at hjoined
    exact hafter ▸ hjoined
  edges := by
    intro corners hdeposits hok
    rcases (step_of_handle h hdeposits hok).exists_pathsAt h
      (Deposition.isNumber_of_deposits hdeposits) with ⟨paths, hbefore, hafter⟩
    rcases pathEdges_trace paths corners with ⟨drawn, hdrawn, htrace⟩
    rw [← hbefore] at htrace
    exact ⟨drawn, hdrawn, hafter ▸ htrace⟩
  others := by
    intro corners hdeposits hok entry hmem
    exact (step_of_handle h hdeposits hok).mem_of_mem h
      (Deposition.isNumber_of_deposits hdeposits) hmem

/-- The polyline of any arc, and the arcs in every state that a builder of the program
reaches. -/
theorem arcRule_replay_new :
    (∀ (arc : Arc Float) (maxError : Float),
      ¬ arc.Centred ∧ arc.polyline? maxError = none ∨
        arc.Centred ∧ ∃ corners, arc.polyline? maxError = some corners ∧
          2 ≤ corners.length ∧ corners.length ≤ 65538 ∧
          corners.head? = some arc.source ∧ corners.getLast? = some arc.destination) ∧
    ∀ (settings : BuildSettings Float) (instructions : List (Instruction Float))
      (lineNumber : Nat) (move : ArcMove Float),
      ArcRule ((Builder.new settings).replay instructions) lineNumber move :=
  ⟨Arc.polyline?_cases, fun settings instructions =>
    arcRule_of_consistent (consistent_replay_new settings instructions)⟩

/-- An arc around its own source continues the path of a straight move that ends there. -/
example :
    (((Builder.new (.default : BuildSettings Float)).replay
      [.straight 1 (some 10) none (some 1),
        ⟨2, .arc ⟨.clockwise, 10, 0, 0, 0, 2, none⟩⟩]).print.layers.pathsAt 0).map
          (fun path => path.points.size) = [3] := by
  decide +kernel

end Builder
end Extrusion
