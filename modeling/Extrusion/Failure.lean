import Extrusion.Arc
import Extrusion.Fault
import Extrusion.Layer.Descent
import Extrusion.Machine
import Extrusion.Settings

/-!
# Failures

Everything that can keep a program from becoming a model, with the messages
that say so.
-/

namespace Extrusion

inductive BuildError (α : Type) where
  | unknownCommand (error : UnknownCommand)
  | descent (error : DescentError α)
  /-- Source and destination of the arc are not equally far from its pivot. -/
  | uncentredArc (arc : Arc α)
  deriving Repr

inductive InputError where
  | notText
  | noSuchFile
  deriving DecidableEq, Repr

inductive Failure (α : Type) where
  | malformed (error : SyntaxError)
  | unreadable (error : InputError)
  | unbuildable (error : BuildError α)
  | misconfigured (error : SettingsError α)
  deriving Repr

def Vec2.pairText (point : Vec2 Float) : String :=
  let style := Numeric.NumberStyle.explicit
  "(" ++ style.text point.x ++ ", " ++ style.text point.y ++ ")"

def BuildError.message : BuildError Float → String
  | .unknownCommand error => error.message
  | .descent error => error.message
  | .uncentredArc arc =>
      s!"points (source={arc.source.pairText}, destination={arc.destination.pairText}) "
        ++ s!"are not equidistant from pivot={arc.pivot.pairText}"

def InputError.message : InputError → String
  | .notText => "stream did not contain valid UTF-8"
  | .noSuchFile => "No such file or directory (os error 2)"

namespace Failure

def message : Failure Float → String
  | .malformed error => error.message
  | .unreadable error => s!"failed to read G-code: {error.message}"
  | .unbuildable error => error.message
  | .misconfigured error => error.message

def markdown : Failure Float → String
  | .malformed error => error.markdown
  | failure => failure.message

end Failure

end Extrusion
