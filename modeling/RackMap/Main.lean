/-
The program: reads the config file that the arguments name and prints the answer.

Arguments that are not understood end the run with code 2.
-/
import RackMap.CommandLine

namespace RackMap.CommandLine

/-- the content of a file, or why it cannot be read -/
def readFile (name : String) : IO (Except FileFault String) := do
  try
    let bytes ← IO.FS.readBinFile name
    match String.fromUTF8? bytes with
    | some text => return .ok text
    | none => return .error .notText
  catch fault =>
    match fault with
    | .noFileOrDirectory _ _ _ => return .error .noSuchFile
    | .inappropriateType _ code text => return .error (.system text code.toNat)
    | .permissionDenied _ code text => return .error (.system text code.toNat)
    | .invalidArgument _ code text => return .error (.system text code.toNat)
    | other => return .error (.system other.toString 0)

def usage : String :=
  "Usage: compile <CONFIG> [--output settings|map] [--strict-options] [--allow-equal-if] [--diagnostics]"

end RackMap.CommandLine

open RackMap.CommandLine

def main (arguments : List String) : IO UInt32 := do
  match Arguments.parse? arguments with
  | none =>
    IO.eprintln usage
    return 2
  | some a =>
    let answer := a.answer (← readFile a.config)
    IO.print answer.stdout
    IO.eprint answer.stderr
    return answer.exit.toUInt32
