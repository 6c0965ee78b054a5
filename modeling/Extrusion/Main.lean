import Extrusion.Application

/-!
# The program

Reads the files that the arguments name and prints the answer of the
application.
-/

namespace Extrusion

def readBytes? (path : String) : IO (Option (List UInt8)) := do
  try
    let bytes ← IO.FS.readBinFile path
    return some bytes.toList
  catch _ => return none

def configDirectory? : IO (Option String) := do
  match ← IO.getEnv "XDG_CONFIG_HOME" with
  | some directory => if directory.startsWith "/" then return some directory
  | none => pure ()
  return (← IO.getEnv "HOME").map (· ++ "/.config")

def readNamed (arguments : Arguments) : IO (List (String × List UInt8)) := do
  let mut contents := []
  for path in arguments.path :: arguments.options.config.toList do
    if let some bytes ← readBytes? path then
      contents := (path, bytes) :: contents
  return contents

end Extrusion

open Extrusion in
def main (texts : List String) : IO UInt32 := do
  let contents ←
    match ArgumentReader.read texts with
    | .ok arguments => readNamed arguments
    | .error _ => pure []
  let user ←
    match ← configDirectory? with
    | some directory => readBytes? (directory ++ "/" ++ Application.userSettingsPath)
    | none => pure none
  let answer := Application.answer user (fun path => contents.lookup path) texts
  IO.print answer.output
  IO.eprint answer.complaint
  return UInt32.ofNat answer.exitCode
