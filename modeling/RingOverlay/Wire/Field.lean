/-!
# `RingOverlay.Wire.Field` — tagged fields of a message

A message on the wire is a run of fields, each a key (tag and kind) and a value. Numbers are written in
groups of seven bits, the least significant first. Fields with a default value are left out.

## Contents
- **Numbers.** `writeVarint`, `varintLength`, `readVarint`.
- **Fields.** Writers for texts, counts, time stamps and nested messages, each beside the length of
  what it writes; `readFields`, which splits bytes into fields and passes over groups.
-/

namespace RingOverlay.Wire

/-! ## Numbers -/

/-- A number in groups of seven bits, the least significant first; each byte but the last has its
    top bit set. -/
def writeVarint (n : Nat) : List UInt8 :=
  if n < 128 then [.ofNat n] else .ofNat (n % 128 + 128) :: writeVarint (n / 128)

/-- The number of bytes of `writeVarint n`. -/
def varintLength (n : Nat) : Nat :=
  if n < 128 then 1 else varintLength (n / 128) + 1

/-- Reads a number of at most `room` bytes; the last byte of ten may only be 0 or 1, so that the
    number stays below 2^64. -/
def readVarintIn : Nat → List UInt8 → Option (Nat × List UInt8)
  | 0, _ => none
  | _ + 1, [] => none
  | room + 1, b :: rest =>
    if b.toNat < 128 then
      if room = 0 ∧ 2 ≤ b.toNat then none else some (b.toNat, rest)
    else do
      let (n, rest) ← readVarintIn room rest
      return (b.toNat % 128 + 128 * n, rest)

/-- Reads a number of at most ten bytes from the front. -/
def readVarint (bytes : List UInt8) : Option (Nat × List UInt8) := readVarintIn 10 bytes

/-! ## Keys -/

/-- How the value of a field is laid out. -/
inductive Kind where
  | varint | fixed64 | delimited | groupStart | groupEnd | fixed32
  deriving DecidableEq, Inhabited, Repr

/-- The number that stands for a kind in a key. -/
def Kind.toNat : Kind → Nat
  | varint => 0
  | fixed64 => 1
  | delimited => 2
  | groupStart => 3
  | groupEnd => 4
  | fixed32 => 5

/-- The kind of a number below 6. -/
def Kind.ofNat? : Nat → Option Kind
  | 0 => some varint
  | 1 => some fixed64
  | 2 => some delimited
  | 3 => some groupStart
  | 4 => some groupEnd
  | 5 => some fixed32
  | _ => none

/-- The key of a field. -/
def writeKey (tag : Nat) (kind : Kind) : List UInt8 := writeVarint (tag * 8 + kind.toNat)

/-- The number of bytes of a key. -/
def keyLength (tag : Nat) : Nat := varintLength (tag * 8)

/-- Reads a key: below 2^32, of a known kind, its tag not 0. -/
def readKey (bytes : List UInt8) : Option ((Nat × Kind) × List UInt8) := do
  let (key, rest) ← readVarint bytes
  if 0x100000000 ≤ key then none
  let kind ← Kind.ofNat? (key % 8)
  if key / 8 = 0 then none
  return ((key / 8, kind), rest)

/-! ## Writing fields -/

/-- The UTF-8 bytes of a text. -/
def textBytes (text : String) : List UInt8 := text.toUTF8.data.toList

/-- The text of UTF-8 bytes, if they are well-formed. -/
def textOfBytes? (bytes : List UInt8) : Option String := String.fromUTF8? ⟨bytes.toArray⟩

/-- A length and the bytes of that length. -/
def writeDelimited (bytes : List UInt8) : List UInt8 := writeVarint bytes.length ++ bytes

/-- A text field; the empty text is left out. -/
def writeText (tag : Nat) (text : String) : List UInt8 :=
  if text.isEmpty then [] else writeKey tag .delimited ++ writeDelimited (textBytes text)

/-- The number of bytes of `writeText tag text`. -/
def textLength (tag : Nat) (text : String) : Nat :=
  if text.isEmpty then 0
  else keyLength tag + varintLength text.utf8ByteSize + text.utf8ByteSize

/-- A count field; 0 is left out. -/
def writeCount (tag : Nat) (n : UInt32) : List UInt8 :=
  if n = 0 then [] else writeKey tag .varint ++ writeVarint n.toNat

/-- The number of bytes of `writeCount tag n`. -/
def countLength (tag : Nat) (n : UInt32) : Nat :=
  if n = 0 then 0 else keyLength tag + varintLength n.toNat

/-- A time stamp field; 0 is left out. A negative stamp is written as its two's complement. -/
def writeStamp (tag : Nat) (n : Int64) : List UInt8 :=
  if n = 0 then [] else writeKey tag .varint ++ writeVarint n.toUInt64.toNat

/-- The number of bytes of `writeStamp tag n`. -/
def stampLength (tag : Nat) (n : Int64) : Nat :=
  if n = 0 then 0 else keyLength tag + varintLength n.toUInt64.toNat

/-- A nested message field; an absent message is left out, an empty one is not. -/
def writeNested (tag : Nat) : Option (List UInt8) → List UInt8
  | none => []
  | some bytes => writeKey tag .delimited ++ writeDelimited bytes

/-- The number of bytes of a nested message field, given that of the message. -/
def nestedLength (tag : Nat) : Option Nat → Nat
  | none => 0
  | some n => keyLength tag + varintLength n + n

/-! ## Reading fields -/

/-- The value of a field as it stands on the wire. Fixed-width values and groups are of no use to any
    message here, so only their presence is kept. -/
inductive Value where
  | varint (n : Nat)
  | delimited (bytes : List UInt8)
  | other
  deriving DecidableEq, Inhabited, Repr

/-- Drops `n` bytes, if there are so many. -/
def skipBytes (n : Nat) (bytes : List UInt8) : Option (List UInt8) :=
  if n ≤ bytes.length then some (bytes.drop n) else none

/-- Passes over the open groups, given by their tags from the inside out. Inside `depth` open groups
    nothing but their ends may follow. -/
def skipGroups (depth : Nat) : Nat → List Nat → List UInt8 → Option (List UInt8)
  | _, [], bytes => some bytes
  | 0, _ :: _, _ => none
  | fuel + 1, inner :: outer, bytes => do
    let ((tag, kind), rest) ← readKey bytes
    if kind = .groupEnd then
      if tag = inner then skipGroups depth fuel outer rest else none
    else if depth ≤ (inner :: outer).length then none
    else
      match kind with
      | .varint => do
        let (_, rest) ← readVarint rest
        skipGroups depth fuel (inner :: outer) rest
      | .fixed64 => do skipGroups depth fuel (inner :: outer) (← skipBytes 8 rest)
      | .fixed32 => do skipGroups depth fuel (inner :: outer) (← skipBytes 4 rest)
      | .delimited => do
        let (n, rest) ← readVarint rest
        skipGroups depth fuel (inner :: outer) (← skipBytes n rest)
      | _ => skipGroups depth fuel (tag :: inner :: outer) rest

/-- Reads the value of a field from the front. Groups may nest `depth` deep. -/
def readValue (depth tag : Nat) (kind : Kind) (bytes : List UInt8) :
    Option (Value × List UInt8) :=
  match kind with
  | .varint => do
    let (n, rest) ← readVarint bytes
    return (.varint n, rest)
  | .delimited => do
    let (n, rest) ← readVarint bytes
    if n ≤ rest.length then return (.delimited (rest.take n), rest.drop n) else none
  | .fixed64 => do return (.other, ← skipBytes 8 bytes)
  | .fixed32 => do return (.other, ← skipBytes 4 bytes)
  | .groupStart => do return (.other, ← skipGroups depth bytes.length [tag] bytes)
  | .groupEnd => none

/-- Splits bytes into fields, at most `fuel` of them. -/
def readFieldsIn (depth : Nat) : Nat → List UInt8 → Option (List (Nat × Value))
  | _, [] => some []
  | 0, _ :: _ => none
  | fuel + 1, b :: bytes => do
    let ((tag, kind), rest) ← readKey (b :: bytes)
    let (value, rest) ← readValue depth tag kind rest
    let fields ← readFieldsIn depth fuel rest
    return (tag, value) :: fields

/-- Splits all bytes into fields. Every field takes at least one byte. -/
def readFields (depth : Nat) (bytes : List UInt8) : Option (List (Nat × Value)) :=
  readFieldsIn depth bytes.length bytes

end RingOverlay.Wire
