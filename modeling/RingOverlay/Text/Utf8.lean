/-!
# `RingOverlay.Text.Utf8` — where bytes stop being text

The bytes of a text are characters of one to four bytes. The first byte of a character tells which bytes
may follow it.

## Contents
- `followers?`, the ranges of the bytes behind a first byte.
- `Utf8Flaw`, a place where bytes are no text, and its wording.
- `utf8Text`, the text of bytes or their first flaw.
-/

namespace RingOverlay.Text

/-- A range of bytes, its ends included. -/
structure ByteRange where
  first : UInt8
  last : UInt8
  deriving DecidableEq, Inhabited, Repr

/-- Whether a byte lies in a range. -/
def ByteRange.contains (r : ByteRange) (b : UInt8) : Bool := r.first ≤ b && b ≤ r.last

/-- The bytes that go on with a character where nothing else is ruled out. -/
def anyFollower : ByteRange := ⟨0x80, 0xbf⟩

/-- The ranges of the bytes that complete a character. Overlong forms, surrogates and what lies behind the
    last character are ruled out by the second byte. Nothing for a byte that begins no character. -/
def followers? (b : UInt8) : Option (List ByteRange) :=
  if b < 0x80 then some []
  else if b < 0xc2 then none
  else if b < 0xe0 then some [anyFollower]
  else if b = 0xe0 then some [⟨0xa0, 0xbf⟩, anyFollower]
  else if b = 0xed then some [⟨0x80, 0x9f⟩, anyFollower]
  else if b < 0xf0 then some [anyFollower, anyFollower]
  else if b = 0xf0 then some [⟨0x90, 0xbf⟩, anyFollower, anyFollower]
  else if b < 0xf4 then some [anyFollower, anyFollower, anyFollower]
  else if b = 0xf4 then some [⟨0x80, 0x8f⟩, anyFollower, anyFollower]
  else none

/-- A place where bytes are no text: how many bytes are text before it, and how many from it on cannot
    begin a character. There is no such number where the bytes end too early. -/
structure Utf8Flaw where
  start : Nat
  length : Option Nat
  deriving DecidableEq, Inhabited, Repr

/-- The wording of a flaw. -/
def Utf8Flaw.message (f : Utf8Flaw) : String :=
  match f.length with
  | some n => s!"invalid utf-8 sequence of {n} bytes from index {f.start}"
  | none => s!"incomplete utf-8 byte sequence from index {f.start}"

/-- What has been seen of bytes: where the last character starts, how many of its bytes are there, and
    which are still to come. -/
structure Utf8Scan where
  start : Nat := 0
  seen : Nat := 0
  awaited : List ByteRange := []
  deriving Inhabited, Repr

/-- Looks at one more byte. -/
def Utf8Scan.see (s : Utf8Scan) (b : UInt8) : Except Utf8Flaw Utf8Scan :=
  match s.awaited with
  | [] =>
    match followers? b with
    | none => .error ⟨s.start + s.seen, some 1⟩
    | some awaited => .ok ⟨s.start + s.seen, 1, awaited⟩
  | r :: awaited =>
    if r.contains b then .ok ⟨s.start, s.seen + 1, awaited⟩ else .error ⟨s.start, some s.seen⟩

/-- The first flaw of bytes that are no text. -/
def utf8Flaw (bytes : List UInt8) : Utf8Flaw :=
  match bytes.foldlM Utf8Scan.see {} with
  | .error flaw => flaw
  | .ok s => ⟨s.start, none⟩

/-- The text of bytes, or their first flaw. -/
def utf8Text (bytes : List UInt8) : Except Utf8Flaw String :=
  match String.fromUTF8? ⟨bytes.toArray⟩ with
  | some text => .ok text
  | none => .error (utf8Flaw bytes)

end RingOverlay.Text
