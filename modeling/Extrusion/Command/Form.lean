import Extrusion.Word

/-!
# Command forms

The table of the supported commands: the code that opens each of them, the
parameter letters it takes, and what it cannot do without.
-/

namespace Extrusion

inductive Form where
  | rapidMove
  | linearMove
  | clockwiseArc
  | counterclockwiseArc
  | inches
  | millimetres
  | home
  | absolutePositioning
  | relativePositioning
  | setPosition
  | absoluteExtrusion
  | relativeExtrusion
  | setTemperature
  | awaitTemperature
  deriving DecidableEq, Repr

namespace Form

def all : List Form :=
  [.rapidMove, .linearMove, .clockwiseArc, .counterclockwiseArc, .inches, .millimetres,
    .home, .absolutePositioning, .relativePositioning, .setPosition, .absoluteExtrusion,
    .relativeExtrusion, .setTemperature, .awaitTemperature]

def key : Form → Char × Nat
  | .rapidMove => ('g', 0)
  | .linearMove => ('g', 1)
  | .clockwiseArc => ('g', 2)
  | .counterclockwiseArc => ('g', 3)
  | .inches => ('g', 20)
  | .millimetres => ('g', 21)
  | .home => ('g', 28)
  | .absolutePositioning => ('g', 90)
  | .relativePositioning => ('g', 91)
  | .setPosition => ('g', 92)
  | .absoluteExtrusion => ('m', 82)
  | .relativeExtrusion => ('m', 83)
  | .setTemperature => ('m', 104)
  | .awaitTemperature => ('m', 109)

def code (form : Form) : Code :=
  ⟨form.key.1, String.ofList (Nat.toDigits 10 form.key.2)⟩

def ofCode? (code : Code) : Option Form :=
  code.number?.bind fun number => all.find? fun form => form.key == (code.letter, number)

/-- The parameter letters that the command takes.  Two of them open commands
of their own and so are never read behind another command. -/
def parameters : Form → List Char
  | .rapidMove | .linearMove => ['x', 'y', 'z', 'e', 'f', 'h', 'r', 's']
  | .clockwiseArc | .counterclockwiseArc => ['x', 'y', 'i', 'j', 'e', 'f']
  | .home => ['x', 'y', 'z']
  | .setPosition => ['x', 'y', 'z', 'e']
  | .setTemperature => ['s', 'r', 'd']
  | .awaitTemperature => ['s', 'r', 't']
  | .inches | .millimetres | .absolutePositioning | .relativePositioning
  | .absoluteExtrusion | .relativeExtrusion => []

def requirement : Form → String
  | .rapidMove | .linearMove => "at least one of x, y, z, e, f, h, r, s"
  | .clockwiseArc | .counterclockwiseArc => "x, y, i, j, e"
  | .setPosition => "at least one of x, y, z, e"
  | .setTemperature | .awaitTemperature => "s"
  | .inches | .millimetres | .home | .absolutePositioning | .relativePositioning
  | .absoluteExtrusion | .relativeExtrusion => "nothing"

end Form

end Extrusion
