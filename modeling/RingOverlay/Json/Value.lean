import RingOverlay.Json.Number
import RingOverlay.Json.Text
import RingOverlay.Text.Quoted

/-!
# `RingOverlay.Json.Value` — values of an expected type

Each reader here takes one value of the type that it expects off the front of a text. A value of
another type is named in the fault together with what was expected.

## Contents
- **Mismatches.** `wrongType`, `wrongValue`, `mismatch`.
- **Types.** `string`, `natural`, `nullable`.
- **Passing over.** `passValue`, any value without a look at its type.
-/

namespace RingOverlay.Json

/-! ## Mismatches -/

/-- A value has another type. -/
def wrongType (found expected : String) : ReadFault :=
  .unfit ("invalid type: " ++ found ++ ", expected " ++ expected)

/-- A value has the right type but is not allowed. -/
def wrongValue (found expected : String) : ReadFault :=
  .unfit ("invalid value: " ++ found ++ ", expected " ++ expected)

/-- A text between backquotes. -/
def ticked (text : String) : String := "\x60" ++ text ++ "\x60"

/-- How a fault names an integer. -/
def integerText (n : Int) : String := "integer " ++ ticked (toString n)

/-- How a fault names a number of the wrong type. -/
def Number.label : Number → String
  | natural n => integerText n
  | negative n => integerText (-n)
  | real x => "floating point " ++ ticked (floatText x)

/-- Reads the value that is next, of which a list or an object is only looked at, and reports that it
    has another type than expected. -/
def mismatch {α : Type} (expected : String) : Reader α := do
  match ← peek with
  | some 'n' =>
    literal "null".toList
    throw (wrongType "null" expected)
  | some 't' =>
    literal "true".toList
    throw (wrongType ("boolean " ++ ticked "true") expected)
  | some 'f' =>
    literal "false".toList
    throw (wrongType ("boolean " ++ ticked "false") expected)
  | some '"' =>
    let text ← stringBody
    throw (wrongType ("string " ++ Text.quoted text) expected)
  | some '[' => throw (wrongType "sequence" expected)
  | some '\x7b' => throw (wrongType "map" expected)
  | some '-' =>
    skip
    let n ← readNumber false
    throw (wrongType n.label expected)
  | some c =>
    if c.isDigit then
      let n ← readNumber true
      throw (wrongType n.label expected)
    else throw .malformed
  | none => throw .unfinished

/-! ## Types -/

/-- Reads a string. -/
def string (expected : String) : Reader String := do
  if (← peekToken) = some '"' then stringBody else mismatch expected

/-- Reads an integer from 0 to `greatest`. -/
def natural (expected : String) (greatest : Nat) : Reader Nat := do
  let c ← peekToken
  let n ← if c = some '-' then do
      skip
      readNumber false
    else if c.any Char.isDigit then readNumber true
    else mismatch expected
  match n with
  | .natural n =>
    if n ≤ greatest then return n else throw (wrongValue (integerText n) expected)
  | .negative n => throw (wrongValue (integerText (-n)) expected)
  | .real _ => throw (wrongType n.label expected)

/-- Reads a value that may be `null`. -/
def nullable {α : Type} (reader : Reader α) : Reader (Option α) := do
  if (← peekToken) = some 'n' then
    literal "null".toList
    return none
  else return some (← reader)

/-! ## Passing over -/

/-- What a value stands in. -/
inductive Frame where
  | list | object
  deriving DecidableEq, Inhabited, Repr

/-- The character that ends a frame. -/
def Frame.close : Frame → Char
  | list => ']'
  | object => '\x7d'

/-- Takes a value off that is no list and no object; of these, only the first character. -/
def passScalar : Reader (Option Frame) := do
  match ← peekToken with
  | some 'n' => literal "null".toList *> return none
  | some 't' => literal "true".toList *> return none
  | some 'f' => literal "false".toList *> return none
  | some '"' =>
    skip
    set (← skipText (← get))
    return none
  | some '-' => skip *> passNumber *> return none
  | some '[' => skip *> return some .list
  | some '\x7b' => skip *> return some .object
  | some c =>
    if c.isDigit then passNumber *> return none else throw .malformed
  | none => throw .unfinished

/-- Takes the key of a member of an object off, with its colon. -/
def passKey : Reader Unit := do
  token '"'
  set (← skipText (← get))
  token ':'

/-- Takes the ends of frames off, and what separates the next value from the one before. Returns the
    frames that are still open, in each of which a value follows; `after` tells whether a value stands
    in front. -/
def passEnds : Bool → List Frame → Reader (List Frame)
  | _, [] => return []
  | after, frame :: outer => do
    match ← peekToken with
    | none => throw .unfinished
    | some c =>
      if c = frame.close then
        skip
        passEnds true outer
      else
        if after then
          if c = ',' then skip else throw .malformed
        if frame = .object then passKey
        return frame :: outer

/-- Takes values off until no frame is open, at most `fuel` of them. -/
def passValues : Nat → List Frame → Reader Unit
  | 0, _ => throw .malformed
  | fuel + 1, frames => do
    let frames ← match ← passScalar with
      | some frame => passEnds false (frame :: frames)
      | none => passEnds true frames
    if !frames.isEmpty then passValues fuel frames

/-- Takes any value off. Each value in it has at least one character. -/
def passValue : Reader Unit := do passValues ((← get).length + 1) []

end RingOverlay.Json
