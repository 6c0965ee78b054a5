import Extrusion.Proofs.Builder.Step

/-!
# Handling an instruction change by change

The machine, the judgement of the height, the layers and the priming layer of a
builder are changed one after the other, and any of the first steps can fail.
Changes that were made before a failure are not taken back.  What handling an
instruction leads to is what these changes lead to.
-/

namespace Extrusion
namespace Builder

/-- Changes of a builder that may stop with an error.  Those before it stay. -/
abbrev Changes (α β : Type) := ExceptT (BuildError α) (StateM (Builder α)) β

def Changes.outcome {α β : Type} (changes : Changes α β) (builder : Builder α) :
    Except (BuildError α) β × Builder α :=
  changes.run.run builder

namespace Changes

section

variable {α β γ : Type} (builder : Builder α)

theorem outcome_bind (changes : Changes α β) (next : β → Changes α γ) :
    (changes >>= next).outcome builder =
      match (changes.outcome builder).1 with
      | .ok value => (next value).outcome (changes.outcome builder).2
      | .error error => (.error error, (changes.outcome builder).2) := by
  show ExceptT.bindCont next (changes.outcome builder).1 (changes.outcome builder).2 = _
  cases (changes.outcome builder).1 <;> rfl

theorem outcome_get : (get : Changes α (Builder α)).outcome builder = (.ok builder, builder) := rfl

end

/-!
# The changes
-/

variable {α : Type}

def setDescent (descent : Descent α) : Changes α Unit :=
  modify fun builder => { builder with print := { builder.print with descent } }

def descend (print : Print α) (z : α) : Changes α (LayerSource α) := do
  if print.descent.primed then throw (.descent (.afterPriming z print.descent.lastHeight))
  else if 1 < print.layers.size then
    throw (.descent (.late z print.descent.lastHeight print.layers.size))
  else if print.layers.size = 0 then return .fresh
  else
    setDescent { print.descent with primed := true }
    return .demoting print.descent.lastHeight

variable [Scalar α]

def advance (instruction : Instruction α) : Changes α Unit := do
  let builder ← get
  match builder.machine.run instruction with
  | .error error => throw (.unknownCommand error)
  | .ok machine => set { builder with machine }

def findSource (print : Print α) (z : α) : Changes α (LayerSource α) :=
  if print.layers.contains z then pure .existing
  else if z < print.descent.lastHeight then descend print z
  else pure .fresh

def judge (z : α) : Changes α (LayerSource α) := do
  let source ← findSource (← get).print z
  setDescent { (← get).print.descent with lastHeight := z }
  return source

def makeReady : LayerSource α → Changes α Unit
  | .demoting height =>
      modify fun builder => { builder with print := builder.print.demote height }
  | _ => pure ()

def lay (deposition : Deposition α) : Changes α Unit :=
  modify fun builder =>
    let layers := builder.print.layers.update deposition.height (Print.taking deposition)
    { builder with print := { builder.print with layers } }

def add (deposition : Deposition α) : Changes α Unit := do
  let source ← judge deposition.height
  makeReady source
  lay deposition

def perform (instruction : Instruction α) : Changes α Unit := do
  advance instruction
  let builder ← get
  match Deposition.ofCommand builder.settings.arcMaxError builder.machine.previous
    builder.machine.current instruction.command with
  | .error error => throw error
  | .ok none => return
  | .ok (some deposition) => add deposition

/-!
# What they lead to
-/

theorem outcome_advance (builder : Builder α) (instruction : Instruction α) :
    (advance instruction).outcome builder =
      match builder.machine.run instruction with
      | .error error => (.error (.unknownCommand error), builder)
      | .ok machine => (.ok (), { builder with machine }) := by
  unfold advance
  rw [outcome_bind, outcome_get]
  dsimp only
  cases builder.machine.run instruction <;> rfl

/-- The height is remembered, and a demotion noted, only where the height is not
refused. -/
theorem outcome_judge (builder : Builder α) (z : α) :
    (judge z).outcome builder =
      match builder.print.descent.resolve z (builder.print.layers.contains z)
        builder.print.layers.size with
      | .error error => (.error (.descent error), builder)
      | .ok (source, descent) =>
          (.ok source, { builder with print := { builder.print with descent } }) := by
  rw [Descent.resolve_eq]
  unfold judge
  rw [outcome_bind, outcome_get]
  dsimp only
  rw [outcome_bind]
  unfold findSource
  by_cases hknown : builder.print.layers.contains z = true
  · rw [if_pos hknown, if_pos hknown]
    rfl
  · rw [if_neg hknown, if_neg hknown]
    by_cases hlt : z < builder.print.descent.lastHeight
    · rw [if_pos hlt, if_pos hlt]
      unfold descend
      by_cases hprimed : builder.print.descent.primed = true
      · rw [if_pos hprimed, if_pos hprimed]
        rfl
      · rw [if_neg hprimed, if_neg hprimed]
        by_cases hmany : 1 < builder.print.layers.size
        · rw [if_pos hmany, if_pos hmany]
          rfl
        · rw [if_neg hmany, if_neg hmany]
          by_cases hnone : builder.print.layers.size = 0
          · rw [if_pos hnone, if_pos hnone, ← Bool.eq_false_iff.mpr hprimed]
            rfl
          · rw [if_neg hnone, if_neg hnone]
            rfl
    · rw [if_neg hlt, if_neg hlt]
      rfl

theorem demote_withDescent (print : Print α) (descent : Descent α) (height : α) :
    { print with descent }.demote height = { print.demote height with descent } := by
  unfold Print.demote
  cases print.layers.take? height <;> rfl

theorem outcome_add (builder : Builder α) (deposition : Deposition α) :
    (add deposition).outcome builder =
      match builder.print.add deposition with
      | .error error => (.error (.descent error), builder)
      | .ok print => (.ok (), { builder with print }) := by
  unfold add
  rw [Print.add_eq, outcome_bind, outcome_judge]
  cases builder.print.descent.resolve deposition.height
      (builder.print.layers.contains deposition.height) builder.print.layers.size with
  | error error => rfl
  | ok answer =>
      rcases answer with ⟨source, descent⟩
      cases source with
      | existing => rfl
      | fresh => rfl
      | demoting height =>
          have hready : (makeReady (.demoting height)).outcome
              { builder with print := { builder.print with descent } } =
                (.ok (), { builder with print := { builder.print.demote height with descent } }) :=
            congrArg (fun print => (Except.ok (), { builder with print }))
              (demote_withDescent builder.print descent height)
          dsimp only
          rw [outcome_bind, hready]
          rfl

/-- Handling an instruction is what the changes lead to. -/
theorem outcome_perform (builder : Builder α) (instruction : Instruction α) :
    (perform instruction).outcome builder =
      (match (builder.handle instruction).2 with
        | none => .ok ()
        | some error => .error error,
      (builder.handle instruction).1) := by
  unfold perform
  rw [outcome_bind, outcome_advance, handle_eq]
  cases builder.machine.run instruction with
  | error error => rfl
  | ok machine =>
      dsimp only
      rw [outcome_bind, outcome_get]
      dsimp only
      rw [collect_eq]
      cases Deposition.ofCommand builder.settings.arcMaxError machine.previous machine.current
          instruction.command with
      | error error => rfl
      | ok found =>
          cases found with
          | none => rfl
          | some deposition =>
              dsimp only
              rw [outcome_add]
              cases builder.print.add deposition <;> rfl

end Changes
end Builder
end Extrusion
