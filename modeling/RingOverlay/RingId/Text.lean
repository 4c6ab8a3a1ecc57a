import RingOverlay.RingId.Basic
import RingOverlay.Text.Numeral

/-!
# `RingOverlay.RingId.Text` — written forms of points

A point travels as a decimal numeral, is kept as 32 big-endian bytes, and is shown in reports by its
leading hexadecimal digits.

## Contents
- **Decimal.** `decimal` writes, `ofDecimal` reads and says what is wrong with any other text.
- **Bytes.** `toBytes`, `ofBytes` for up to 32 bytes, `hex`.
- **Reports.** `short` (at most twelve significant hexadecimal digits) and `tagged`.
-/

namespace RingOverlay.RingId

open Text

/-- Why a text or a byte string is no point of the ring. -/
inductive ReadError where
  | empty
  | notDecimal (text : String)
  | tooLarge (text : String)
  | tooManyBytes (count : Nat)
  deriving DecidableEq, Repr

/-- The wording of a reading error. -/
def ReadError.message : ReadError → String
  | .empty => "empty identifier"
  | .notDecimal text => "'" ++ text ++ "' is not decimal"
  | .tooLarge text => "'" ++ text ++ "' exceeds 2^256"
  | .tooManyBytes count => toString count ++ " bytes do not fit in " ++ toString bits ++ " bits"

/-! ## Decimal -/

/-- The number of decimal digits taken off in one division. -/
def chunkDigits : Nat := 19

/-- 10^19, the largest power of ten in a word. -/
def chunk : UInt64 := 10000000000000000000

/-- The digits of `x` in groups of `chunkDigits`, the least significant group first. -/
def chunks (x : RingId) : List UInt64 :=
  if h : x = zero then []
  else
    have := val_divRem_lt h (show 1 < chunk.toNat by decide)
    (x.divRem chunk).2 :: chunks (x.divRem chunk).1
termination_by x.val

/-- The decimal digits of groups that are given most significant first: the first group has no
    leading zeros, each other one is filled up to its width. -/
def joinChunks : List UInt64 → List Char
  | [] => ['0']
  | c :: rest => digits c.toNat ++ rest.flatMap fun c => paddedDigits chunkDigits c.toNat

/-- The decimal numeral of a point, without leading zeros. -/
def decimal (x : RingId) : String := String.ofList (joinChunks x.chunks.reverse)

/-- Appends one decimal digit to a point; `text` is the whole numeral, for the report. -/
def readDigit (text : String) (x : RingId) (c : Char) : Except ReadError RingId :=
  match digitValue? c with
  | none => .error (.notDecimal text)
  | some d =>
    match x.mulAdd? 10 (.ofNat d) with
    | none => .error (.tooLarge text)
    | some y => .ok y

/-- Reads a decimal numeral below 2^256, leading zeros allowed. The first character that is no digit
    or makes the value too large decides the error. -/
def ofDecimal (text : String) : Except ReadError RingId :=
  if text.isEmpty then .error .empty
  else text.toList.foldlM (readDigit text) zero

/-! ## Bytes -/

/-- The eight bytes of a word, the most significant first. -/
def wordBytes (w : UInt64) : List UInt8 :=
  [(w >>> 56).toUInt8, (w >>> 48).toUInt8, (w >>> 40).toUInt8, (w >>> 32).toUInt8,
    (w >>> 24).toUInt8, (w >>> 16).toUInt8, (w >>> 8).toUInt8, w.toUInt8]

/-- The word of up to eight bytes, the most significant first. -/
def wordOfBytes (bytes : List UInt8) : UInt64 :=
  bytes.foldl (fun w b => (w <<< 8) ||| b.toUInt64) 0

/-- The 32 bytes of a point, the most significant first. -/
def toBytes (x : RingId) : List UInt8 :=
  wordBytes x.w3 ++ wordBytes x.w2 ++ wordBytes x.w1 ++ wordBytes x.w0

/-- The point of 32 bytes, the most significant first. -/
def ofFullBytes (bytes : List UInt8) : RingId :=
  ⟨wordOfBytes (bytes.take 8), wordOfBytes ((bytes.drop 8).take 8),
    wordOfBytes ((bytes.drop 16).take 8), wordOfBytes ((bytes.drop 24).take 8)⟩

/-- The point of up to 32 bytes, the most significant first; zeros are put in front of fewer. -/
def ofBytes (bytes : List UInt8) : Except ReadError RingId :=
  if bytes.length ≤ 32 then
    .ok (ofFullBytes (List.replicate (32 - bytes.length) 0 ++ bytes))
  else .error (.tooManyBytes bytes.length)

/-- The 64 lower-case hexadecimal digits of a point. -/
def hex (x : RingId) : String := String.ofList (hexOfBytes x.toBytes)

/-! ## Reports -/

/-- The most hexadecimal digits that `short` shows. -/
def shortDigits : Nat := 12

/-- The form in reports: `0x` and the leading significant hexadecimal digits, with `..` where digits
    are left out. -/
def short (x : RingId) : String :=
  let significant := (hexOfBytes x.toBytes).dropWhile (· == '0')
  if significant.isEmpty then "0x0"
  else if significant.length ≤ shortDigits then "0x" ++ String.ofList significant
  else "0x" ++ String.ofList (significant.take shortDigits) ++ ".."

/-- The decimal form inside its type's name. -/
def tagged (x : RingId) : String := "NodeId(" ++ x.decimal ++ ")"

instance : ToString RingId := ⟨short⟩

end RingOverlay.RingId
