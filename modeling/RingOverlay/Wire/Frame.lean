import RingOverlay.Wire.Message

/-!
# `RingOverlay.Wire.Frame` — messages in frames

A request or a response travels as frames: a byte that tells whether the message is compressed, its
length in four bytes, and the message.

## Contents
- `frame` writes one, `readFrames` reads all that a body holds, `readSingle` the one of a request.
-/

namespace RingOverlay.Wire

/-- The greatest length of a message. -/
def frameLimit : Nat := 4 * 1024 * 1024

/-- The four bytes of a length, the most significant first. -/
def lengthBytes (n : Nat) : List UInt8 :=
  [.ofNat (n / 0x1000000), .ofNat (n / 0x10000), .ofNat (n / 0x100), .ofNat n]

/-- A frame that holds a message. -/
def frame (message : List UInt8) : List UInt8 := 0 :: lengthBytes message.length ++ message

/-- A body is no run of frames with messages of the expected type. -/
def badBody (reason : String) : Status := ⟨.internal, reason⟩

/-- A message is longer than `frameLimit`. -/
def tooLong (length : Nat) : Status :=
  ⟨.outOfRange, s!"Error, decoded message length too large: found {length} bytes, "
    ++ s!"the limit is: {frameLimit} bytes"⟩

/-- Reads the messages of a body, at most `fuel`. A body may end behind the length of a message, which then
    does not count; it may not end inside that length or inside a message. -/
def readFramesIn (α : Type) [Message α] : Nat → List UInt8 → Except Status (List α)
  | _, [] => .ok []
  | 0, _ => .error (badBody "too many frames")
  | fuel + 1, flag :: l3 :: l2 :: l1 :: l0 :: rest => do
    if flag ≠ 0 then throw (badBody "message is compressed")
    let length := ((l3.toNat * 256 + l2.toNat) * 256 + l1.toNat) * 256 + l0.toNat
    if frameLimit < length then throw (tooLong length)
    if rest.isEmpty && 0 < length then return []
    if rest.length < length then throw (badBody "body ends inside a message")
    match decode? α (rest.take length) with
    | none => throw (badBody "message cannot be decoded")
    | some message =>
      let more ← readFramesIn α fuel (rest.drop length)
      return message :: more
  | _ + 1, _ => .error (badBody "body ends inside a frame")

/-- Reads the messages of a body. Each takes at least five bytes. -/
def readFrames (α : Type) [Message α] (body : List UInt8) : Except Status (List α) :=
  readFramesIn α body.length body

/-- Reads the message of a body that should hold one. Further ones are read but not used. -/
def readSingle (α : Type) [Message α] (body : List UInt8) : Except Status α := do
  match ← readFrames α body with
  | [] => throw (badBody "message is missing")
  | message :: _ => return message

end RingOverlay.Wire
