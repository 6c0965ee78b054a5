import Extrusion.Model
import Extrusion.Numeric.Rounding
import Extrusion.Program.Stream

/-!
# Builds

A build pulls items from a stream, reports its progress and can be stopped.
The caller's side is a predicate on what has happened so far: it is asked
between items and between the steps of finishing, and a build that it stops
ends without a model and without a failure.
-/

namespace Extrusion

inductive Stage where
  | simulating
  | padding
  | statistics
  | finalizing
  deriving DecidableEq, Repr

/-- A progress report: a stage and how much of it is done, from zero to one. -/
structure Progress where
  stage : Stage
  fraction : Rat
  deriving DecidableEq, Repr

structure History where
  pulled : Nat
  handled : Nat
  /-- The reports so far, the last one first. -/
  reports : List Progress
  deriving DecidableEq, Repr

structure Control where
  expected : Option Nat
  stop : History → Bool

inductive Outcome (α : Type) where
  | completed (model : Model α)
  | cancelled
  | failed (failure : Failure α)

namespace Progress

def singleRatio (num den : Nat) : Nat × Nat :=
  let (significand, exponent) := Numeric.BinaryFormat.single.round num den
  (significand * Nat.pow 2 exponent.toNat, Nat.pow 2 (-exponent).toNat)

/-- The share `done / total` in binary32, at most one. -/
def fractionOf (done total : Nat) : Rat :=
  let (doneNum, doneDen) := singleRatio done 1
  let (totalNum, totalDen) := singleRatio total 1
  let (num, den) := singleRatio (doneNum * totalDen) (doneDen * totalNum)
  if den ≤ num then mkRat 1 1 else mkRat num den

end Progress

namespace History

def start : History := ⟨0, 0, []⟩

def pull (history : History) : History :=
  { history with pulled := history.pulled + 1 }

def handle (history : History) : History :=
  { history with handled := history.handled + 1 }

def report (history : History) (stage : Stage) (fraction : Rat) : History :=
  { history with reports := ⟨stage, fraction⟩ :: history.reports }

end History

namespace Build

variable {α : Type} [Scalar α]

def reportInterval : Nat := 1024

/-- Reports after every full interval, if a positive number of instructions is
expected. -/
def reportSimulated (control : Control) (history : History) : History :=
  match control.expected with
  | some expected =>
      if 0 < expected ∧ history.handled % reportInterval = 0 then
        history.report .simulating (Progress.fractionOf history.handled expected)
      else history
  | none => history

/-- Runs the items of a stream.  Without a builder the build has ended. -/
def simulate (control : Control) (history : History) (builder : Builder α) :
    List (Except (Failure α) (Instruction α)) →
      History × Except (Outcome α) (Builder α)
  | [] => (history, .ok builder)
  | item :: items =>
      let history := history.pull
      if control.stop history then (history, .error .cancelled)
      else
        match item with
        | .error failure => (history, .error (.failed failure))
        | .ok instruction =>
            match builder.handle instruction with
            | (_, some error) => (history, .error (.failed (.unbuildable error)))
            | (builder, none) =>
                simulate control (reportSimulated control history.handle) builder items

/-- Finishes layers one by one; there are none where the build is stopped. -/
def padLayers (control : Control) (padding : α) (total done : Nat) (history : History) :
    List (α × Draft α) → History × Option (List (α × Layer α))
  | [] => (history, some [])
  | (z, draft) :: rest =>
      if control.stop history then (history, none)
      else
        let history := history.report .padding (Progress.fractionOf (done + 1) total)
        let (history, layers) := padLayers control padding total (done + 1) history rest
        (history, layers.map ((z, draft.finish padding) :: ·))

def finish (control : Control) (history : History) (builder : Builder α) :
    History × Outcome α :=
  let drafts := builder.print.layers.ascending
  match padLayers control builder.padding drafts.length 0 history drafts with
  | (history, none) => (history, .cancelled)
  | (history, some layers) =>
      let priming := builder.print.priming.map fun (z, draft) =>
        (z, draft.finish builder.padding)
      let history := history.report .statistics 1
      if control.stop history then (history, .cancelled)
      else
        let model := Model.new layers priming builder.settings.nozzleDiameter
        (history.report .finalizing 1, .completed model)

def run (control : Control) (settings : BuildSettings α)
    (items : List (Except (Failure α) (Instruction α))) : History × Outcome α :=
  let history := History.start.report .simulating 0
  match simulate control history (.new settings) items with
  | (history, .error outcome) => (history, outcome)
  | (history, .ok builder) => finish control (history.report .simulating 1) builder

/-- Builds a model from the bytes of a program; there are none where the file
does not exist. -/
def load (control : Control) (settings : BuildSettings Float) (bytes : Option (List UInt8)) :
    History × Outcome Float :=
  match settings.validate, bytes with
  | .error error, _ => (.start, .failed (.misconfigured error))
  | .ok (), none => (.start, .failed (.unreadable .noSuchFile))
  | .ok (), some bytes =>
      run control settings (InstructionStream.ofBytes settings.skipUnknown bytes).items

end Build

end Extrusion
