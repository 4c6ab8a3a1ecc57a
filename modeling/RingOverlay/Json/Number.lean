import RingOverlay.Decimal.Shortest
import RingOverlay.Json.Basic
import RingOverlay.Text.Numeral

/-!
# `RingOverlay.Json.Number` — JSON numbers

Integers within 64 bits are kept as they are, all other numbers as floating point values: at most 19 or
20 significant digits are taken in, the others only count, and the value is scaled by a power of ten
at the end.

## Contents
- `Number`.
- **Reading.** `scale?`, `readExponent`, `readFraction`, `readLong`, `readNumber`.
- **Writing.** `floatText`.
-/

namespace RingOverlay.Json

open Text

/-- A number as it is kept. -/
inductive Number where
  | natural (n : Nat)
  /-- The integer `-n`, with `n` at least 1. -/
  | negative (n : Nat)
  | real (x : Float)
  deriving Inhabited, Repr

/-! ## Reading -/

/-- The greatest value that is still kept as an integer, of 64 bits. -/
def maxSignificand : Nat := 0xffffffffffffffff

/-- The power `10^k`, for `k` up to 308. -/
def powerOfTen (k : Nat) : Float := Float.ofScientific 1 false k

/-- Scales `x` by `10^e`. Nothing if the result is too large. A very small result is reached in leaps of
    308 powers, at most `fuel` of them. -/
def scale? (fuel : Nat) (x : Float) (e : Int) : Option Float :=
  if e.natAbs ≤ 308 then
    if 0 ≤ e then
      let y := x * powerOfTen e.natAbs
      if y.isInf then none else some y
    else some (x / powerOfTen e.natAbs)
  else if x == 0.0 then some x
  else if 0 ≤ e then none
  else
    match fuel with
    | 0 => some 0.0
    | fuel + 1 => scale? fuel (x / powerOfTen 308) (e + 308)

/-- The floating point number of a significand, an exponent and a sign. Three leaps take any significand
    to zero. -/
def ofParts (positive : Bool) (significand : Nat) (e : Int) : Reader Number :=
  match scale? 3 (UInt64.ofNat significand).toFloat e with
  | none => throw .malformed
  | some x => return .real (if positive then x else -x)

/-- Takes in digits while the value stays in 64 bits: the value, the number of digits taken in, and
    whether a digit was left over. -/
def absorb (significand : Nat) : List Char → Nat × Nat × Bool
  | [] => (significand, 0, false)
  | c :: rest =>
    match digitValue? c with
    | none => (significand, 0, false)
    | some d =>
      if maxSignificand < significand * 10 + d then (significand, 0, true)
      else
        let (s, n, full) := absorb (significand * 10 + d) rest
        (s, n + 1, full)

/-- Takes all digits off and returns how many there were. -/
def skipDigits : Reader Nat := do
  let cs ← get
  let digits := cs.takeWhile Char.isDigit
  set (cs.drop digits.length)
  return digits.length

/-- The greatest exponent that is taken in, of 31 bits. -/
def maxExponent : Nat := 0x7fffffff

/-- Keeps an exponent within 32 bits. -/
def clampExponent (e : Int) : Int := max (-0x80000000) (min 0x7fffffff e)

/-- Reads an exponent, its letter being next. `e` is the exponent that the digits so far have. -/
def readExponent (positive : Bool) (significand : Nat) (e : Int) : Reader Number := do
  skip
  let sign ← peek
  if sign = some '+' ∨ sign = some '-' then skip
  let up := sign ≠ some '-'
  match ← peek with
  | none => throw .unfinished
  | some c =>
    if !c.isDigit then throw .malformed
    let digits := (← get).takeWhile Char.isDigit
    let _ ← skipDigits
    let shift := digits.foldl (fun n c => n * 10 + (digitValue? c).getD 0) 0
    if maxExponent < shift then
      if significand ≠ 0 ∧ up then throw .malformed
      return .real (if positive then 0.0 else -0.0)
    ofParts positive significand (clampExponent (if up then e + shift else e - shift))

/-- Reads an exponent if there is one, else ends the number. -/
def readEnd (positive : Bool) (significand : Nat) (e : Int) : Reader Number := do
  let c ← peek
  if c = some 'e' ∨ c = some 'E' then readExponent positive significand e
  else ofParts positive significand e

/-- Reads the digits behind a point, the point being next. Digits that do not fit are left out. -/
def readFraction (positive : Bool) (significand : Nat) (e : Int) : Reader Number := do
  skip
  let (s, taken, full) := absorb significand (← get)
  modify (·.drop taken)
  if full then
    let _ ← skipDigits
  else if taken = 0 then
    throw (if (← peek).isNone then .unfinished else .malformed)
  readEnd positive s (e - taken)

/-- Reads the rest of an integer part that does not fit. Its digits only count. -/
def readLong (positive : Bool) (significand : Nat) : Reader Number := do
  let more ← skipDigits
  if (← peek) = some '.' then readFraction positive significand more
  else readEnd positive significand more

/-- Ends an integer part that fits. A negative number is kept as an integer if that has 64 bits with a
    sign; `-0` is not. -/
def readShort (positive : Bool) (significand : Nat) : Reader Number := do
  let c ← peek
  if c = some '.' then readFraction positive significand 0
  else if c = some 'e' ∨ c = some 'E' then readExponent positive significand 0
  else if positive then return .natural significand
  else if significand = 0 ∨ 0x8000000000000000 < significand then
    return .real (-(UInt64.ofNat significand).toFloat)
  else return .negative significand

/-- Reads a number behind its sign. -/
def readNumber (positive : Bool) : Reader Number := do
  match ← peek with
  | none => throw .unfinished
  | some c =>
    if c = '0' then
      skip
      if ((← peek).any Char.isDigit) then throw .malformed
      readShort positive 0
    else if c.isDigit then
      let (significand, taken, full) := absorb 0 (← get)
      modify (·.drop taken)
      if full then readLong positive significand else readShort positive significand
    else throw .malformed

/-- Passes over digits, at least one. -/
def passDigits : Reader Unit := do
  if (← skipDigits) = 0 then throw .malformed

/-- Passes over an exponent if there is one. -/
def passExponent : Reader Unit := do
  let c ← peek
  if c = some 'e' ∨ c = some 'E' then
    skip
    let sign ← peek
    if sign = some '+' ∨ sign = some '-' then skip
    passDigits

/-- Passes over a number behind its sign, without a look at its value. -/
def passNumber : Reader Unit := do
  if (← peek) = some '0' then
    skip
    if ((← peek).any Char.isDigit) then throw .malformed
  else passDigits
  if (← peek) = some '.' then
    skip
    passDigits
  passExponent

/-! ## Writing -/

/-- Writes `n * 10^e`: in positional notation from `10^-5` on and below `10^16`, else with a signed
    exponent. A whole number in positional notation keeps one zero behind its point. -/
def decimalText (n : Nat) (e : Int) : List Char :=
  let ds := digits n
  let point := (ds.length : Int) + e
  if 0 ≤ e ∧ point ≤ 16 then ds ++ List.replicate e.toNat '0' ++ ['.', '0']
  else if 0 < point ∧ point ≤ 16 then ds.take point.toNat ++ '.' :: ds.drop point.toNat
  else if -5 < point ∧ point ≤ 0 then
    ['0', '.'] ++ List.replicate (-point).toNat '0' ++ ds
  else
    let shown := point - 1
    let exponent := (if shown < 0 then '-' else '+') :: digits shown.natAbs
    match ds with
    | [d] => d :: 'e' :: exponent
    | d :: rest => d :: '.' :: rest ++ 'e' :: exponent
    | [] => []

/-- The shortest text of a finite floating point number that reads back as the same. -/
def floatText (x : Float) : String :=
  let bits := x.toBits.toNat
  let sign := if bits / 0x8000000000000000 = 1 then ['-'] else []
  let exponent := bits / 0x10000000000000 % 2048
  let fraction := bits % 0x10000000000000
  let text :=
    if exponent = 0 ∧ fraction = 0 then ['0', '.', '0']
    else
      let m := if exponent = 0 then fraction else fraction + 0x10000000000000
      let q : Int := (max exponent 1 : Nat) - 1075
      let (n, e) := (Decimal.Rounding.ofBinary m q (fraction = 0 ∧ 1 < exponent)).shortest
      decimalText n e
  String.ofList (sign ++ text)

end RingOverlay.Json
