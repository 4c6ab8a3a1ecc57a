/-!
# `RingOverlay.Text.Numeral` — digits of numbers

Decimal digits and hexadecimal digit pairs, written and read.

## Contents
- **Decimal.** `digits` without leading zeros, `paddedDigits` of a fixed width, `digitValue?`.
- **Any base.** `numeralIn?`.
- **Hexadecimal.** `hexDigit`, `hexOfBytes` with two lower-case digits a byte, `bytesOfHex?`.
-/

namespace RingOverlay.Text

/-- The decimal digit `d % 10`. -/
def digitChar (d : Nat) : Char := Char.ofNat (48 + d % 10)

/-- The decimal digits of `n` without leading zeros; `0` has one digit. -/
def digits (n : Nat) : List Char :=
  if n < 10 then [digitChar n] else digits (n / 10) ++ [digitChar n]

/-- The last `width` decimal digits of `n`, with zeros in front where there are fewer. -/
def paddedDigits : Nat → Nat → List Char
  | 0, _ => []
  | width + 1, n => paddedDigits width (n / 10) ++ [digitChar n]

/-- The value of a decimal digit. The digits are the ten ASCII ones only. -/
def digitValue? (c : Char) : Option Nat :=
  if '0' ≤ c ∧ c ≤ '9' then some (c.toNat - 48) else none

/-- The lower-case hexadecimal digit `d % 16`. -/
def hexDigit (d : Nat) : Char :=
  if d % 16 < 10 then Char.ofNat (48 + d % 16) else Char.ofNat (87 + d % 16)

/-- The value of a hexadecimal digit of either case. -/
def hexValue? (c : Char) : Option Nat :=
  if '0' ≤ c ∧ c ≤ '9' then some (c.toNat - 48)
  else if 'a' ≤ c ∧ c ≤ 'f' then some (c.toNat - 87)
  else if 'A' ≤ c ∧ c ≤ 'F' then some (c.toNat - 55)
  else none

/-- The value of a numeral in a base of at most sixteen. -/
def numeralIn? (base : Nat) (cs : List Char) : Option Nat :=
  if cs.isEmpty then none
  else cs.foldlM (fun n c => ((hexValue? c).filter (· < base)).map fun d => n * base + d) 0

/-- Two lower-case digits for each byte. -/
def hexOfBytes (bytes : List UInt8) : List Char :=
  bytes.flatMap fun b => [hexDigit (b.toNat / 16), hexDigit b.toNat]

/-- The bytes written as pairs of hexadecimal digits, if the text is nothing else. -/
def bytesOfHex? : List Char → Option (List UInt8)
  | [] => some []
  | [_] => none
  | h :: l :: rest => do
    let high ← hexValue? h
    let low ← hexValue? l
    let bytes ← bytesOfHex? rest
    return .ofNat (high * 16 + low) :: bytes

/-- The hexadecimal digits of `n` without leading zeros; `0` has one digit. -/
def hexDigits (n : Nat) : List Char :=
  if n < 16 then [hexDigit n] else hexDigits (n / 16) ++ [hexDigit n]

end RingOverlay.Text
