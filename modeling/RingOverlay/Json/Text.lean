import RingOverlay.Json.Basic
import RingOverlay.Text.Numeral

/-!
# `RingOverlay.Json.Text` — JSON strings

A string stands between double quotes. Quotes, backslashes and controls inside it are escaped;
characters beyond 16 bits may be written as two escapes.

## Contents
- **Writing.** `escaped`, `quote`.
- **Reading.** `hexUnit`, `readEscape`, `readText`, `skipText`.
-/

namespace RingOverlay.Json

open Text

/-! ## Writing -/

/-- A character inside a string. -/
def escaped (c : Char) : List Char :=
  if c = '"' then ['\\', '"']
  else if c = '\\' then ['\\', '\\']
  else if c = '\x08' then ['\\', 'b']
  else if c = '\x0c' then ['\\', 'f']
  else if c = '\n' then ['\\', 'n']
  else if c = '\r' then ['\\', 'r']
  else if c = '\t' then ['\\', 't']
  else if c < ' ' then ['\\', 'u', '0', '0', hexDigit (c.toNat / 16), hexDigit c.toNat]
  else [c]

/-- A text as a JSON string. -/
def quote (text : String) : List Char := '"' :: text.toList.flatMap escaped ++ ['"']

/-! ## Reading -/

/-- Reads the four hexadecimal digits of an escape. Fewer than four bytes mean that the text ends too
    early, whatever they are. -/
def hexUnit : List Char → Except ReadFault Nat
  | a :: b :: c :: d :: _ =>
    match hexValue? a, hexValue? b, hexValue? c, hexValue? d with
    | some a, some b, some c, some d => .ok (((a * 16 + b) * 16 + c) * 16 + d)
    | _, _, _, _ => .error .malformed
  | few =>
    let bytes := few.foldl (fun n c => n + c.utf8Size) 0
    .error (if bytes < 4 then .unfinished else .malformed)

/-- Whether a 16-bit unit is the first of a pair. -/
def isLeading (n : Nat) : Bool := 0xd800 ≤ n ∧ n < 0xdc00

/-- Whether a 16-bit unit is the second of a pair. -/
def isTrailing (n : Nat) : Bool := 0xdc00 ≤ n ∧ n < 0xe000

/-- Reads the second unit of a pair, an escape of its own, behind the first unit `leading`. -/
def readTrailing (leading : Nat) : List Char → Except ReadFault Char
  | '\\' :: 'u' :: rest => do
    let trailing ← hexUnit rest
    if isTrailing trailing then
      return Char.ofNat ((leading - 0xd800) * 0x400 + (trailing - 0xdc00) + 0x10000)
    else throw .malformed
  | [] | ['\\'] => .error .unfinished
  | _ => .error .malformed

/-- The character of an escape that is one letter long. -/
def shortEscape? : Char → Option Char
  | '"' => some '"'
  | '\\' => some '\\'
  | '/' => some '/'
  | 'b' => some '\x08'
  | 'f' => some '\x0c'
  | 'n' => some '\n'
  | 'r' => some '\r'
  | 't' => some '\t'
  | _ => none

/-- Reads what follows a backslash: the character meant and the number of characters that stand for
    it. -/
def readEscape : List Char → Except ReadFault (Char × Nat)
  | [] => .error .unfinished
  | 'u' :: rest => do
    let n ← hexUnit rest
    if isTrailing n then throw .malformed
    else if isLeading n then return (← readTrailing n (rest.drop 4), 11)
    else return (Char.ofNat n, 5)
  | c :: _ =>
    match shortEscape? c with
    | some d => .ok (d, 1)
    | none => .error .malformed

/-- Reads a string behind its opening quote: its characters, and what follows the closing quote. -/
def readText : List Char → Except ReadFault (List Char × List Char)
  | [] => .error .unfinished
  | c :: rest =>
    if c = '"' then .ok ([], rest)
    else if c = '\\' then do
      let (d, used) ← readEscape rest
      let (text, rest) ← readText (rest.drop used)
      return (d :: text, rest)
    else if c < ' ' then .error .malformed
    else do
      let (text, rest) ← readText rest
      return (c :: text, rest)
termination_by cs => cs.length

/-- Passes over what follows a backslash and returns its length. Units of pairs are not matched up. -/
def skipEscape : List Char → Except ReadFault Nat
  | [] => .error .unfinished
  | 'u' :: rest => do
    let _ ← hexUnit rest
    return 5
  | c :: _ => if (shortEscape? c).isSome then .ok 1 else .error .malformed

/-- Passes over a string behind its opening quote. -/
def skipText : List Char → Except ReadFault (List Char)
  | [] => .error .unfinished
  | c :: rest =>
    if c = '"' then .ok rest
    else if c = '\\' then do
      let used ← skipEscape rest
      skipText (rest.drop used)
    else if c < ' ' then .error .malformed
    else skipText rest
termination_by cs => cs.length

/-- Reads a string whose opening quote is next. -/
def stringBody : Reader String := do
  skip
  let (text, rest) ← readText (← get)
  set rest
  return String.ofList text

end RingOverlay.Json
