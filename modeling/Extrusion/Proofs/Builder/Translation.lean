import Extrusion.Proofs.Builder.Skipping
import Extrusion.Proofs.Layer.Translation
import Extrusion.Proofs.Machine.Translation
import Extrusion.Proofs.Print.Ordering

/-!
# Prints from another origin

In exact arithmetic two builders that differ in the origin of their coordinate
systems do the same.  They accept and refuse the same instructions, and their models
have the same heights, paths and samples, with every point seen from the one origin
or from the other.  The instructions may not set the offsets in the plane.
-/

namespace Extrusion

section

variable {α : Type} [Scalar α]

def Print.seenFrom (origin : Vec2 α) (print : Print α) : Print α :=
  { print with
    layers := print.layers.seenFrom origin
    priming := print.priming.map (Prod.map id (Draft.seenFrom origin)) }

def Machine.seenFrom (origin : Vec2 α) (machine : Machine α) : Machine α :=
  ⟨machine.skipUnknown, machine.previous.seenFrom origin, machine.current.seenFrom origin⟩

def Builder.seenFrom (origin : Vec2 α) (builder : Builder α) : Builder α :=
  ⟨builder.settings, builder.machine.seenFrom origin, builder.print.seenFrom origin⟩

def Observation.seenFrom (origin : Vec2 α) (seen : Observation α) : Observation α :=
  ⟨seen.error.map (BuildError.seenFrom origin), seen.state.seenFrom origin,
    seen.print.seenFrom origin⟩

def Model.seenFrom (origin : Vec2 α) (model : Model α) : Model α :=
  { model with
    layers := model.layers.map (Prod.map id (Layer.seenFrom origin))
    priming := model.priming.map (Prod.map id (Layer.seenFrom origin)) }

def Builder.startingIn (settings : BuildSettings α) (state : MachineState α) : Builder α :=
  ⟨settings, ⟨settings.skipUnknown, state, state⟩, .empty⟩

end

/-!
# Prints
-/

namespace Print

theorem empty_add {α : Type} [Scalar α] (deposition : Deposition α) :
    Print.empty.add deposition =
      .ok
        { layers := LayerStack.empty.update deposition.height (taking deposition)
          priming := none
          descent := ⟨deposition.height, false⟩ } := by
  have hresolve : (Print.empty : Print α).descent.resolve deposition.height
      ((Print.empty : Print α).layers.contains deposition.height)
      (Print.empty : Print α).layers.size = .ok (.fresh, ⟨deposition.height, false⟩) :=
    resolve_fresh rfl
  rw [add_eq, hresolve]
  rfl

theorem demote_seenFrom {α : Type} [Scalar α] (origin : Vec2 α) (print : Print α) (height : α) :
    (print.seenFrom origin).demote height = (print.demote height).seenFrom origin := by
  have htake : (print.seenFrom origin).layers.take? height =
      (print.layers.take? height).map
        (Prod.map (Draft.seenFrom origin) (LayerStack.seenFrom origin)) :=
    print.layers.take?_seenFrom origin height
  unfold demote
  rw [htake]
  cases print.layers.take? height <;> rfl

variable (origin : Vec2 ℝ) (print : Print ℝ) (deposition : Deposition ℝ)

theorem update_seenFrom :
    (print.seenFrom origin).layers.update deposition.height (taking (deposition.seenFrom origin)) =
      (print.layers.update deposition.height (taking deposition)).seenFrom origin := by
  apply LayerStack.update_seenFrom
  intro draft
  exact draft.deposit_seenFrom origin deposition.corners _ _

theorem add_seenFrom :
    (print.seenFrom origin).add (deposition.seenFrom origin) =
      (print.add deposition).map (Print.seenFrom origin) := by
  have hresolve : (print.seenFrom origin).descent.resolve deposition.height
        ((print.seenFrom origin).layers.contains deposition.height)
        (print.seenFrom origin).layers.size =
      print.descent.resolve deposition.height (print.layers.contains deposition.height)
        print.layers.size := by
    show print.descent.resolve _ ((print.layers.seenFrom origin).contains _)
      (print.layers.seenFrom origin).size = _
    rw [LayerStack.contains_seenFrom, LayerStack.size_seenFrom]
  have hheight : (deposition.seenFrom origin).height = deposition.height := rfl
  rw [add_eq, add_eq, hheight, hresolve]
  cases print.descent.resolve deposition.height (print.layers.contains deposition.height)
      print.layers.size with
  | error error => rfl
  | ok answer =>
      rcases answer with ⟨source, descent⟩
      cases source with
      | demoting height =>
          show Except.ok _ = Except.ok _
          rw [demote_seenFrom, update_seenFrom]
          rfl
      | existing =>
          show Except.ok _ = Except.ok _
          rw [update_seenFrom]
          rfl
      | fresh =>
          show Except.ok _ = Except.ok _
          rw [update_seenFrom]
          rfl

end Print

/-!
# Models
-/

theorem Model.new_seenFrom {α : Type} [Scalar α] (origin : Vec2 α) (layers : List (α × Layer α))
    (priming : Option (α × Layer α)) (nozzleDiameter : α) :
    Model.new (layers.map (Prod.map id (Layer.seenFrom origin)))
        (priming.map (Prod.map id (Layer.seenFrom origin))) nozzleDiameter =
      (Model.new layers priming nozzleDiameter).seenFrom origin := by
  unfold Model.new Model.seenFrom
  rw [List.map_mergeSort]
  intro a _ b _
  rfl

namespace Builder

theorem toModel_eq {α : Type} [Scalar α] (builder : Builder α) :
    builder.toModel =
      .new (builder.print.layers.ascending.map
          (Prod.map id fun draft => draft.finish builder.padding))
        (builder.print.priming.map (Prod.map id fun draft => draft.finish builder.padding))
        builder.settings.nozzleDiameter := rfl

theorem toModel_seenFrom (origin : Vec2 ℝ) (builder : Builder ℝ) :
    (builder.seenFrom origin).toModel = builder.toModel.seenFrom origin := by
  have hfinish :
      (Prod.map id fun draft : Draft ℝ => draft.finish builder.padding) ∘
          Prod.map (id : ℝ → ℝ) (Draft.seenFrom origin) =
        Prod.map id (Layer.seenFrom origin) ∘
          Prod.map id fun draft => draft.finish builder.padding := by
    funext entry
    exact congrArg (Prod.mk entry.1) (entry.2.finish_seenFrom origin builder.padding)
  have hascending : (builder.seenFrom origin).print.layers.ascending =
      builder.print.layers.ascending.map (Prod.map id (Draft.seenFrom origin)) :=
    List.map_reverse.symm
  have hpriming : (builder.seenFrom origin).print.priming =
      builder.print.priming.map (Prod.map id (Draft.seenFrom origin)) := rfl
  have hpadding : (builder.seenFrom origin).padding = builder.padding := rfl
  rw [toModel_eq, toModel_eq, ← Model.new_seenFrom, hascending, hpriming, hpadding, List.map_map,
    List.map_map, Option.map_map, Option.map_map, hfinish]
  rfl

/-!
# Handling an instruction
-/

variable {first second : Builder ℝ} {origin : Vec2 ℝ} {instruction : Instruction ℝ}
  {instructions : List (Instruction ℝ)}

theorem collect_seenFrom (origin : Vec2 ℝ) (settings : BuildSettings ℝ) (machine : Machine ℝ)
    (print : Print ℝ) (command : Command ℝ) :
    collect settings (machine.seenFrom origin) (print.seenFrom origin) command =
      ((collect settings machine print command).map (Print.seenFrom origin)).mapError
        (BuildError.seenFrom origin) := by
  have hdeposition : Deposition.ofCommand settings.arcMaxError
        (machine.seenFrom origin).previous (machine.seenFrom origin).current command =
      ((Deposition.ofCommand settings.arcMaxError machine.previous machine.current command).map
        (Option.map (Deposition.seenFrom origin))).mapError (BuildError.seenFrom origin) :=
    Deposition.ofCommand_seenFrom origin _ _ _ command
  rw [collect_eq, collect_eq, hdeposition]
  rcases Deposition.ofCommand settings.arcMaxError machine.previous machine.current command with
    error | _ | deposition
  · rfl
  · rfl
  · show ((print.seenFrom origin).add (deposition.seenFrom origin)).mapError .descent =
      (((print.add deposition).mapError .descent).map (Print.seenFrom origin)).mapError
        (BuildError.seenFrom origin)
    rw [Print.add_seenFrom]
    cases print.add deposition <;> rfl

theorem handle_seenFrom (h : instruction.command.sparesPlane = true) (origin : Vec2 ℝ)
    (builder : Builder ℝ) :
    (builder.seenFrom origin).handle instruction =
      ((builder.handle instruction).1.seenFrom origin,
        (builder.handle instruction).2.map (BuildError.seenFrom origin)) := by
  rcases known_or_unsupported instruction with hknown | ⟨code, hcode⟩
  · have hmoved : (builder.seenFrom origin).moved instruction =
        (builder.moved instruction).seenFrom origin :=
      congrArg (Machine.mk _ _) (MachineState.after_seenFrom origin _ h)
    have hcollect : collect (builder.seenFrom origin).settings
          ((builder.moved instruction).seenFrom origin) (builder.seenFrom origin).print
          instruction.command =
        ((collect builder.settings (builder.moved instruction) builder.print
          instruction.command).map (Print.seenFrom origin)).mapError
            (BuildError.seenFrom origin) :=
      collect_seenFrom origin builder.settings (builder.moved instruction) builder.print _
    rw [handle_of_known hknown, handle_of_known hknown, hmoved, hcollect]
    cases collect builder.settings (builder.moved instruction) builder.print
        instruction.command <;> rfl
  · have hskips : (builder.seenFrom origin).machine.skipUnknown = builder.machine.skipUnknown := rfl
    rw [handle_of_unsupported _ hcode, handle_of_unsupported _ hcode, hskips]
    cases builder.machine.skipUnknown <;> rfl

/-!
# Runs
-/

theorem Agree.toModel (h : Agree first second) : first.toModel = second.toModel := by
  unfold Builder.toModel padding
  rw [h.settings, h.print]

theorem Agree.handle_seenFrom (h : Agree second (first.seenFrom origin))
    (hspares : instruction.command.sparesPlane = true) :
    (second.handle instruction).2 =
        (first.handle instruction).2.map (BuildError.seenFrom origin) ∧
      Agree (second.handle instruction).1 ((first.handle instruction).1.seenFrom origin) := by
  have hhandle := h.handle instruction
  rw [Builder.handle_seenFrom hspares] at hhandle
  exact hhandle

theorem Agree.observations_seenFrom (h : Agree second (first.seenFrom origin))
    (hspares : ∀ instruction ∈ instructions, instruction.command.sparesPlane = true) :
    second.observations instructions =
      (first.observations instructions).map (Prod.map id (Observation.seenFrom origin)) := by
  induction instructions generalizing first second with
  | nil => rfl
  | cons instruction rest ih =>
      rcases List.forall_mem_cons.mp hspares with ⟨hhere, hrest⟩
      rcases h.handle_seenFrom hhere with ⟨herror, hnext⟩
      have hobserve : second.observe instruction =
          (first.observe instruction).seenFrom origin := by
        unfold Builder.observe
        rw [herror, hnext.current, hnext.print]
        rfl
      rw [observations_cons, observations_cons, hobserve, ih hnext hrest]
      rfl

theorem Agree.replay_seenFrom (h : Agree second (first.seenFrom origin))
    (hspares : ∀ instruction ∈ instructions, instruction.command.sparesPlane = true) :
    Agree (second.replay instructions) ((first.replay instructions).seenFrom origin) := by
  induction instructions generalizing first second with
  | nil => exact h
  | cons instruction rest ih =>
      rcases List.forall_mem_cons.mp hspares with ⟨hhere, hrest⟩
      exact ih (h.handle_seenFrom hhere).2 hrest

theorem Agree.handleAll_seenFrom (h : Agree second (first.seenFrom origin))
    (hspares : ∀ instruction ∈ instructions, instruction.command.sparesPlane = true) :
    (second.handleAll instructions).map Builder.toModel =
      (((first.handleAll instructions).map Builder.toModel).map
        (Model.seenFrom origin)).mapError (BuildError.seenFrom origin) := by
  induction instructions generalizing first second with
  | nil =>
      have hmodel := h.toModel
      rw [toModel_seenFrom] at hmodel
      exact congrArg Except.ok hmodel
  | cons instruction rest ih =>
      rcases List.forall_mem_cons.mp hspares with ⟨hhere, hrest⟩
      rcases h.handle_seenFrom hhere with ⟨herror, hnext⟩
      cases hfirst : (first.handle instruction).2 with
      | none =>
          rw [hfirst, Option.map_none] at herror
          rw [handleAll_cons_of_ok hfirst, handleAll_cons_of_ok herror]
          exact ih hnext hrest
      | some error =>
          rw [hfirst, Option.map_some] at herror
          rw [handleAll_cons_of_error hfirst, handleAll_cons_of_error herror]
          rfl

end Builder

/-- The second builder does what the first one does, seen from another origin. -/
structure TranslationRule (origin : Vec2 ℝ) (first second : Builder ℝ)
    (instructions : List (Instruction ℝ)) : Prop where
  seen : second.observations instructions =
    (first.observations instructions).map (Prod.map id (Observation.seenFrom origin))
  accepted :
    (second.observations instructions).map (fun seen => seen.2.error.isNone) =
      (first.observations instructions).map fun seen => seen.2.error.isNone
  replayed : (second.replay instructions).toModel =
    (first.replay instructions).toModel.seenFrom origin
  built : (second.handleAll instructions).map Builder.toModel =
    (((first.handleAll instructions).map Builder.toModel).map
      (Model.seenFrom origin)).mapError (BuildError.seenFrom origin)

theorem Builder.Agree.translated {first second : Builder ℝ} {origin : Vec2 ℝ}
    {instructions : List (Instruction ℝ)} (h : Agree second (first.seenFrom origin))
    (hspares : ∀ instruction ∈ instructions, instruction.command.sparesPlane = true) :
    TranslationRule origin first second instructions where
  seen := h.observations_seenFrom hspares
  accepted := by
    rw [h.observations_seenFrom hspares, List.map_map]
    apply List.map_congr_left
    intro seen _
    exact Option.isNone_map
  replayed := (h.replay_seenFrom hspares).toModel.trans (Builder.toModel_seenFrom _ _)
  built := h.handleAll_seenFrom hspares

/-- Start states that differ in the offsets of X and Y alone lead to the same print, each
point of it seen from where the origin is. -/
theorem translationRule (settings : BuildSettings ℝ) (state : MachineState ℝ) (origin : Vec2 ℝ)
    (instructions : List (Instruction ℝ))
    (h : ∀ instruction ∈ instructions, instruction.command.sparesPlane = true) :
    TranslationRule origin (.startingIn settings state)
      (.startingIn settings (state.seenFrom origin)) instructions :=
  Builder.Agree.translated ⟨rfl, rfl, rfl, rfl⟩ h

def raisedLine {α : Type} (z x e : α) : List (Instruction α) :=
  [⟨1, .setPosition ⟨none, none, some z, none⟩⟩, .straight 2 (some x) none (some e)]

theorem translationRule_raisedLine :
    (∀ instruction ∈ raisedLine (2 : ℝ) 3 1, instruction.command.sparesPlane = true) ∧
      TranslationRule ⟨5, 7⟩ (.startingIn .default .initial)
        (.startingIn .default (MachineState.initial.seenFrom ⟨5, 7⟩)) (raisedLine 2 3 1) ∧
      ((Builder.startingIn .default .initial).replay (raisedLine (2 : ℝ) 3 1)).print.layers.size =
        1 := by
  have hspares : ∀ instruction ∈ raisedLine (2 : ℝ) 3 1,
      instruction.command.sparesPlane = true := by
    simp [raisedLine, Instruction.straight, Command.sparesPlane]
  refine ⟨hspares, translationRule .default .initial ⟨5, 7⟩ (raisedLine 2 3 1) hspares, ?_⟩
  have hshift : (Builder.startingIn .default .initial).handle
        ⟨1, .setPosition ⟨none, none, some (2 : ℝ), none⟩⟩ =
      (⟨.default, (Builder.startingIn .default .initial).moved
        ⟨1, .setPosition ⟨none, none, some 2, none⟩⟩, .empty⟩, none) :=
    Builder.handle_of_idle (by simp) (not_isDeposition_of_not_isMove rfl)
  have hline : Builder.DepositsAlong ⟨.default, (Builder.startingIn .default .initial).moved
      ⟨1, .setPosition ⟨none, none, some (2 : ℝ), none⟩⟩, .empty⟩
      (.straight 2 (some 3) none (some 1)) _ :=
    .straight _ (Scalar.beq_real_iff.mpr rfl)
      (show (0 : ℝ) - 0 < 1 - 0 by norm_num) (Or.inl (by simp))
  have hprint := (Builder.handle_of_add_ok hline (Print.empty_add _)).2
  unfold raisedLine
  rw [Builder.replay_cons, hshift]
  exact congrArg (fun print : Print ℝ => print.layers.size) hprint

/-- A program that begins by reading the start as a point has its print moved to
there. -/
theorem modelOf_setPosition (settings : BuildSettings ℝ) (lineNumber : Nat) (x y : ℝ)
    {instructions : List (Instruction ℝ)}
    (h : ∀ instruction ∈ instructions, instruction.command.sparesPlane = true) :
    Builder.modelOf settings
        (⟨lineNumber, .setPosition ⟨some x, some y, none, none⟩⟩ :: instructions) =
      ((Builder.modelOf settings instructions).map (Model.seenFrom ⟨-x, -y⟩)).mapError
        (BuildError.seenFrom ⟨-x, -y⟩) := by
  have hidle : (Builder.new settings).handle
        ⟨lineNumber, .setPosition ⟨some x, some y, none, none⟩⟩ =
      (⟨settings, (Builder.new settings).moved
        ⟨lineNumber, .setPosition ⟨some x, some y, none, none⟩⟩, .empty⟩, none) :=
    Builder.handle_of_idle (by simp) (not_isDeposition_of_not_isMove rfl)
  have hoffset : (MachineState.initial : MachineState ℝ).shifted ⟨some x, some y, none, none⟩ =
      MachineState.initial.seenFrom ⟨-x, -y⟩ := by
    have hx : (0 : ℝ) - x * 1 = 0 + -x := by ring
    have hy : (0 : ℝ) - y * 1 = 0 + -y := by ring
    show ({ MachineState.initial with offset := ⟨0 - x * 1, 0 - y * 1, 0⟩ } : MachineState ℝ) = _
    rw [hx, hy]
    rfl
  have hagree : Builder.Agree
      ((Builder.new settings).handle
        ⟨lineNumber, .setPosition ⟨some x, some y, none, none⟩⟩).1
      ((Builder.new settings).seenFrom ⟨-x, -y⟩) := by
    rw [hidle]
    exact ⟨rfl, rfl, hoffset, rfl⟩
  unfold Builder.modelOf
  rw [Builder.handleAll_cons_of_ok (congrArg Prod.snd hidle)]
  exact hagree.handleAll_seenFrom h

end Extrusion
