/-!
# `RingOverlay.Settings.Path` — paths to a settings file

A path is followed name by name. One file is known, at the root; every other name is taken as missing.

## Contents
- `FileFault`, why a file cannot be read, and its wording.
- `Spot`, a place on the way, and `Spot.follow`.
- `readPath`, the bytes of the file at a path.
-/

namespace RingOverlay.Settings

/-- Why a file cannot be read. -/
inductive FileFault where
  | missing
  | notDirectory
  | directory
  | longName
  | nulByte
  deriving DecidableEq, Inhabited, Repr

/-- The wording of a fault. -/
def FileFault.message : FileFault → String
  | missing => "No such file or directory (os error 2)"
  | notDirectory => "Not a directory (os error 20)"
  | directory => "Is a directory (os error 21)"
  | longName => "File name too long (os error 36)"
  | nulByte => "file name contained an unexpected NUL byte"

/-- The number of bytes of the longest name. -/
def longestName : Nat := 255

/-- The number of bytes of the longest path. -/
def longestPath : Nat := 4095

/-- A place that a path leads through. -/
inductive Spot where
  | root
  /-- A directory in which no file is known. -/
  | folder
  /-- The known file. -/
  | file
  deriving DecidableEq, Inhabited, Repr

/-- Follows one name of a path. `known` is the name of the file at the root, if it is there. -/
def Spot.follow (known : Option String) (spot : Spot) (name : String) : Except FileFault Spot :=
  if spot = .file then .error .notDirectory
  else if name = "" ∨ name = "." ∨ name = ".." then .ok spot
  else if longestName < name.utf8ByteSize then .error .longName
  else if spot = .root ∧ known = some name then .ok .file
  else .error .missing

/-- The bytes of the file at a path, where one file is known, if any. -/
def readPath (known : Option (String × List UInt8)) (path : String) :
    Except FileFault (List UInt8) := do
  if path.toList.contains '\x00' then throw .nulByte
  if longestPath < path.utf8ByteSize then throw .longName
  if path.isEmpty then throw .missing
  let start := if path.toList.head? = some '/' then Spot.root else .folder
  let spot ← (path.splitOn "/").foldlM (Spot.follow (known.map (·.1))) start
  match spot, known with
  | .file, some (_, bytes) => return bytes
  | _, _ => throw .directory

end RingOverlay.Settings
