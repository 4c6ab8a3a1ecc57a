import RingOverlay.Text.Numeral

/-!
# `RingOverlay.Text.Percent` — bytes written as `%` and two digits

## Contents
- `percentDecode`, the bytes that are meant.
-/

namespace RingOverlay.Text

/-- The byte that two hexadecimal digits write. -/
def hexByte? (high low : UInt8) : Option UInt8 := do
  let h ← hexValue? (.ofNat high.toNat)
  let l ← hexValue? (.ofNat low.toNat)
  return .ofNat (h * 16 + l)

/-- The bytes that are meant: `%` and two hexadecimal digits stand for one byte, every other byte for
    itself, also a `%` that no digits follow. -/
def percentDecode : List UInt8 → List UInt8
  | b :: high :: low :: rest =>
    match if b = 37 then hexByte? high low else none with
    | some byte => byte :: percentDecode rest
    | none => b :: percentDecode (high :: low :: rest)
  | bytes => bytes

end RingOverlay.Text
