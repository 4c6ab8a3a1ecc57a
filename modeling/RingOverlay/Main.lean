import RingOverlay.CommandLine.Report

/-!
# `RingOverlay.Main` — the program

Reads the command line and the settings file that it names, and tells what peer they describe.

## Contents
- `fileFault`, `fileBytes`, `readSettings`, `runLine`, `main`.
-/

namespace RingOverlay

/-- The fault of reading a file that the system reports. -/
def fileFault : IO.Error → Settings.FileFault
  | .inappropriateType _ code _ => if code = 20 then .notDirectory else .directory
  | _ => .missing

/-- The bytes of a file, if it can be read. -/
def fileBytes (path : String) : IO (Except Settings.FileFault (List UInt8)) := do
  try
    return .ok (← IO.FS.readBinFile path).data.toList
  catch e => return .error (fileFault e)

/-- Reads the settings that a command line asks for. -/
def readSettings (i : CommandLine.Invocation) : IO (Except SettingsFault Settings) := do
  let bytes ← match i.config with
    | none => pure (.error .missing)
    | some path => fileBytes path
  return i.settings fun _ => Settings.load bytes

/-- Carries a command line out and returns the exit code. -/
def runLine (arguments : List String) : IO UInt32 := do
  match CommandLine.Invocation.ofArguments arguments with
  | .error fault =>
    IO.eprintln (fault.message ++ "\n" ++ CommandLine.usage)
    return 2
  | .ok i =>
    match ← readSettings i with
    | .error fault =>
      IO.eprintln fault.message
      return 1
    | .ok s =>
      IO.println s.summary
      return 0

end RingOverlay

/-- Runs the program. -/
def main (arguments : List String) : IO UInt32 := RingOverlay.runLine arguments
