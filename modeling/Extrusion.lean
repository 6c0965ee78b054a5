import Extrusion.Main
import Extrusion.Command.Printer
import Extrusion.Proofs.Builder.Collection
import Extrusion.Proofs.Builder.Descent
import Extrusion.Proofs.Builder.Failure
import Extrusion.Proofs.Builder.Units
import Extrusion.Proofs.Machine.Frame
import Extrusion.Proofs.Model.Bounds
import Extrusion.Proofs.Program.Stream
import Extrusion.Proofs.Build.Step
import Extrusion.Proofs.Build.Stopping
import Extrusion.Proofs.Build.Routes
import Extrusion.Proofs.Numeric.Double
import Extrusion.Proofs.Numeric.Decimal
import Extrusion.Proofs.Word.Literal
import Extrusion.Proofs.Word.Scan
import Extrusion.Proofs.Word.Noise
import Extrusion.Proofs.Command.Form
import Extrusion.Proofs.Word.Group
import Extrusion.Proofs.Command.Parameters
import Extrusion.Proofs.Command.Reader
import Extrusion.Proofs.Command.Printer
import Extrusion.Proofs.Program.Line
import Extrusion.Proofs.Machine.Unknown
import Extrusion.Proofs.Command.Strictness
import Extrusion.Proofs.Program.Strictness
import Extrusion.Proofs.Builder.Skipping
import Extrusion.Proofs.Build.Completion
import Extrusion.Proofs.Build.Skipping
import Extrusion.Proofs.Builder.Occupation
import Extrusion.Proofs.Model.Shape
import Extrusion.Proofs.Arc.Chords
import Extrusion.Proofs.Builder.Arcs
import Extrusion.Proofs.Print.Ordering
import Extrusion.Proofs.Model.Extent
import Extrusion.Proofs.Model.Numbering
import Extrusion.Proofs.Model.Padding
import Extrusion.Proofs.Layer.Descent
import Extrusion.Proofs.Machine.Writers
import Extrusion.Proofs.Command.Composition
import Extrusion.Proofs.Word.Tiling
import Extrusion.Proofs.Word.Foreign
import Extrusion.Proofs.Build.Reporting
import Extrusion.Proofs.Model.Statistics
import Extrusion.Proofs.Layer.Finiteness
import Extrusion.Proofs.Machine.Drift
import Extrusion.Proofs.Builder.Translation
import Extrusion.Proofs.Settings.Sources
import Extrusion.Proofs.Builder.Heights
import Extrusion.Proofs.Model.Thickness
