/-!
# `RingOverlay.Json.Basic` — reading JSON text

A reader takes characters off the front of a text. The first problem that it meets ends the reading.

## Contents
- `ReadFault`, the three kinds of problem.
- `Reader` and the steps shared by all readers: `peek`, `peekToken`, `skip`, `literal`.
-/

namespace RingOverlay.Json

/-- Why a text cannot be read. -/
inductive ReadFault where
  /-- It is no JSON text. -/
  | malformed
  /-- It ends too early. -/
  | unfinished
  /-- It is JSON, but not of the expected shape. -/
  | unfit (message : String)
  deriving DecidableEq, Inhabited, Repr

/-- Takes characters off the front of a text. -/
abbrev Reader := StateT (List Char) (Except ReadFault)

/-- The characters that may stand between tokens. -/
def isBlank (c : Char) : Bool := c = ' ' ∨ c = '\n' ∨ c = '\t' ∨ c = '\r'

/-- The next character, if there is one. It stays in place. -/
def peek : Reader (Option Char) := return (← get).head?

/-- The next character that is not blank. It stays in place; blanks in front of it are taken off. -/
def peekToken : Reader (Option Char) := do
  modify (·.dropWhile isBlank)
  peek

/-- Takes one character off. -/
def skip : Reader Unit := modify (·.tail)

/-- Takes one character off and returns it. -/
def next : Reader (Option Char) := do
  let c ← peek
  skip
  return c

/-- Takes the characters of a literal off. -/
def literal : List Char → Reader Unit
  | [] => return ()
  | c :: rest => do
    match ← next with
    | none => throw .unfinished
    | some d => if d = c then literal rest else throw .malformed

/-- Takes off blanks and one character that has to be `c`. -/
def token (c : Char) : Reader Unit := do
  match ← peekToken with
  | none => throw .unfinished
  | some d => if d = c then skip else throw .malformed

/-- Reads a whole text; nothing but blanks may follow the value. -/
def readAll {α : Type} (reader : Reader α) (text : String) : Except ReadFault α := do
  let (a, rest) ← reader text.toList
  if (rest.dropWhile isBlank).isEmpty then return a else throw .malformed

end RingOverlay.Json
