import Extrusion.Build
import Extrusion.CommandLine
import Extrusion.Model.Report

/-!
# The application

What the program answers to its arguments, given the files it may read: a text
for the standard output, a text for the error output, and an exit code.
-/

namespace Extrusion

structure Answer where
  exitCode : Nat
  output : String
  complaint : String
  deriving DecidableEq, Repr

namespace Application

def userSettingsPath : String := "gcode-layers/settings.toml"

def versionText : String := "gcode-layers 0.1.0\n"

def helpText : String :=
  "Build a layered toolpath model from an FDM G-code file\n\n"
    ++ "Usage: gcode-layers [OPTIONS] <PATH>\n\n"
    ++ "Arguments:\n"
    ++ "  <PATH>  G-code file to load\n\n"
    ++ "Options:\n"
    ++ "      --config <CONFIG>                    Path to a TOML settings file\n"
    ++ "      --nozzle-diameter <NOZZLE_DIAMETER>  Nozzle diameter in millimetres\n"
    ++ "      --arc-max-error <ARC_MAX_ERROR>      "
    ++ "Maximum chordal error of interpolated arcs in millimetres\n"
    ++ "      --strict                             "
    ++ "Fail on unsupported commands instead of skipping them\n"
    ++ "      --json                               Print the model summary as JSON\n"
    ++ "      --log-level <LOG_LEVEL>              "
    ++ "Log level (trace, debug, info, warn, error) [default: info]\n"
    ++ "  -h, --help                               Print help\n"
    ++ "  -V, --version                            Print version\n"

def success (output : String) : Answer := ⟨0, output, ""⟩

def failure (complaint : String) : Answer := ⟨1, "", complaint ++ "\n"⟩

def refusal (error : ArgumentError) : Answer :=
  let reason : String :=
    match error with
    | .missingPath => "the path of a program is missing"
    | .unknown => "unexpected argument"
    | .notANumber => "a value is not a number"
    | .missingValue => "a value is missing"
    | .repeated => "an argument is given twice"
    | .unexpectedValue => "a flag takes no value"
    | .help | .version => ""
  match error with
  | .help => success helpText
  | .version => success versionText
  | _ => ⟨2, "", s!"error: {reason}\n"⟩

def configComplaint : ConfigError → String
  | .file .unreadable => "failed to read settings file"
  | .file .malformed => "invalid settings file"
  | .settings error => error.message

def uncontrolled : Control := ⟨none, fun _ => false⟩

def load (config : Config) (program : Option (List UInt8)) : Answer :=
  match (Build.load uncontrolled config.settings program).2 with
  | .failed error => failure error.message
  | .cancelled => success ""
  | .completed model =>
      let summary := model.summary
      success (if config.json then summary.jsonText else summary.plainText)

def settingsOf (content : Option (List UInt8)) : Except FileFault SettingsFile :=
  SettingsFile.ofContent (content.bind Text.decode?)

/-- The answer to some arguments.  `user` is the user's settings file, if there
is one, and `files` gives the content of a file by its path. -/
def answer (user : Option (List UInt8)) (files : String → Option (List UInt8))
    (texts : List String) : Answer :=
  match ArgumentReader.read texts with
  | .error error => refusal error
  | .ok arguments =>
      let named := arguments.options.config.map fun path => settingsOf (files path)
      match Config.ofSources (user.map fun bytes => settingsOf (some bytes)) named arguments with
      | .error error => failure (configComplaint error)
      | .ok config => load config (files config.path)

end Application

end Extrusion
