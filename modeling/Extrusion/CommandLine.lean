import Extrusion.Numeric.Decimal
import Extrusion.Settings.File

/-!
# The command line

The arguments of the program, and the settings that result from them and from
the settings files.  Of the sources that set a value the last one counts: the
defaults, the user's file, the file named on the command line, the flags.
-/

namespace Extrusion

inductive ArgumentError where
  | missingPath
  | unknown
  | notANumber
  /-- A missing or an empty value. -/
  | missingValue
  | repeated
  | unexpectedValue
  | help
  | version
  deriving DecidableEq, Repr

inductive OptionName where
  | config
  | nozzleDiameter
  | arcMaxError
  | logLevel
  deriving DecidableEq, Repr

inductive Flag where
  | strict
  | json
  | help
  | version
  deriving DecidableEq, Repr

structure Options where
  config : Option String
  nozzleDiameter : Option Float
  arcMaxError : Option Float
  logLevel : Option String
  strict : Bool
  json : Bool
  deriving BEq, Repr

structure Arguments where
  path : String
  options : Options
  deriving BEq, Repr

namespace Options

def empty : Options := ⟨none, none, none, none, false, false⟩

def once {β : Type} (current : Option β) (value : Except ArgumentError β) :
    Except ArgumentError (Option β) :=
  if current.isSome then .error .repeated else value.map some

def pathValue (text : String) : Except ArgumentError String :=
  if text.isEmpty then .error .missingValue else .ok text

def numberValue (text : String) : Except ArgumentError Float :=
  match Numeric.readFloat? text with
  | some x => .ok x
  | none => .error .notANumber

def assign (options : Options) (name : OptionName) (text : String) :
    Except ArgumentError Options := do
  match name with
  | .config => return { options with config := ← once options.config (pathValue text) }
  | .nozzleDiameter =>
      return { options with
        nozzleDiameter := ← once options.nozzleDiameter (numberValue text) }
  | .arcMaxError =>
      return { options with arcMaxError := ← once options.arcMaxError (numberValue text) }
  | .logLevel => return { options with logLevel := ← once options.logLevel (.ok text) }

/-- Raises a flag.  Those that ask for a text end the reading. -/
def raise (options : Options) : Flag → Except ArgumentError Options
  | .strict => if options.strict then .error .repeated else .ok { options with strict := true }
  | .json => if options.json then .error .repeated else .ok { options with json := true }
  | .help => .error .help
  | .version => .error .version

end Options

inductive Pending where
  | nothing
  | opened (name : OptionName)
  | valued (name : OptionName) (text : String)
  | path (text : String)
  deriving DecidableEq, Repr

structure ArgumentReader where
  path : Option String
  options : Options
  pending : Pending
  pathsOnly : Bool

namespace ArgumentReader

def start : ArgumentReader := ⟨none, .empty, .nothing, false⟩

def settle (reader : ArgumentReader) : Except ArgumentError ArgumentReader :=
  match reader.pending with
  | .nothing => .ok reader
  | .opened _ => .error .missingValue
  | .valued name text => do
      let options ← reader.options.assign name text
      return { reader with options, pending := .nothing }
  | .path text => do
      let path ← Options.pathValue text
      return { reader with path := some path, pending := .nothing }

def named? (name : List Char) : Option (OptionName ⊕ Flag) :=
  let names : List (String × (OptionName ⊕ Flag)) :=
    [("config", .inl .config), ("nozzle-diameter", .inl .nozzleDiameter),
      ("arc-max-error", .inl .arcMaxError), ("log-level", .inl .logLevel),
      ("strict", .inr .strict), ("json", .inr .json), ("help", .inr .help),
      ("version", .inr .version)]
  names.lookup (String.ofList name)

def attached? (body : List Char) : Option String :=
  match body.dropWhile (· ≠ '=') with
  | _ :: value => some (String.ofList value)
  | [] => none

def readLong (reader : ArgumentReader) (body : List Char) :
    Except ArgumentError ArgumentReader :=
  match named? (body.takeWhile (· ≠ '=')), attached? body with
  | none, _ => .error .unknown
  | some (.inr _), some _ => .error .unexpectedValue
  | some (.inr flag), none => do
      let reader ← reader.settle
      return { reader with options := ← reader.options.raise flag }
  | some (.inl name), some text => do
      let reader ← reader.settle
      return { reader with options := ← reader.options.assign name text }
  | some (.inl name), none => do
      let reader ← reader.settle
      return { reader with pending := .opened name }

def flagOf : Char → Except ArgumentError Flag
  | 'h' => .ok .help
  | 'V' => .ok .version
  | _ => .error .unknown

def readShort (reader : ArgumentReader) (letter : Char) :
    Except ArgumentError ArgumentReader := do
  let flag ← flagOf letter
  let reader ← reader.settle
  return { reader with options := ← reader.options.raise flag }

def hasPath (reader : ArgumentReader) : Bool :=
  match reader.path, reader.pending with
  | some _, _ => true
  | none, .path _ => true
  | none, _ => false

def readPath (reader : ArgumentReader) (text : String) :
    Except ArgumentError ArgumentReader :=
  if reader.hasPath then .error .unknown
  else do
    let reader ← reader.settle
    return { reader with pending := .path text }

def readArgument (reader : ArgumentReader) (text : String) :
    Except ArgumentError ArgumentReader :=
  if reader.pathsOnly then reader.readPath text
  else
    match text.toList, reader.pending with
    | ['-', '-'], _ => .ok { reader with pathsOnly := true }
    | '-' :: '-' :: body, _ => reader.readLong body
    | '-' :: letter :: _, _ => reader.readShort letter
    | _, .opened name => .ok { reader with pending := .valued name text }
    | _, _ => reader.readPath text

def read (texts : List String) : Except ArgumentError Arguments := do
  let reader ← texts.foldlM readArgument start
  let reader ← reader.settle
  match reader.path with
  | some path => return ⟨path, reader.options⟩
  | none => throw .missingPath

end ArgumentReader

/-! ## The configuration -/

inductive ConfigError where
  | file (fault : FileFault)
  | settings (error : SettingsError Float)
  deriving Repr

structure Config where
  path : String
  settings : BuildSettings Float
  json : Bool
  logLevel : String
  deriving BEq, Repr

namespace Config

/-- The settings from all sources.  A broken file of the user counts for
nothing; a broken file that the command line names is an error. -/
def settingsFrom (user named : Option (Except FileFault SettingsFile)) (options : Options) :
    Except ConfigError (BuildSettings Float) := do
  let settings : BuildSettings Float :=
    match user with
    | some (.ok file) => BuildSettings.default.apply file
    | _ => .default
  let settings ←
    match named with
    | none => pure settings
    | some (.ok file) => pure (settings.apply file)
    | some (.error fault) => throw (.file fault)
  let settings := settings.apply
    ⟨options.nozzleDiameter, options.arcMaxError, if options.strict then some false else none⟩
  settings.validate.mapError .settings
  return settings

def ofSources (user named : Option (Except FileFault SettingsFile)) (arguments : Arguments) :
    Except ConfigError Config := do
  let settings ← settingsFrom user named arguments.options
  return {
    path := arguments.path
    settings
    json := arguments.options.json
    logLevel := arguments.options.logLevel.getD "info" }

end Config

end Extrusion
