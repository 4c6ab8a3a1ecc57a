import RingOverlay.Text.Numeral

/-!
# `RingOverlay.Loopback.Interface` — the interfaces of a host

An interface has a number of 32 bits. It is written as a name, as one to four numerals between dots, or as
eight groups of hexadecimal digits between colons, of which those that stand for all interfaces or hold a
number of 32 bits name one.

## Contents
- **Numerals.** `basedNumeral?`, `joinParts?`.
- **Groups.** `dotted?`, `groups?`, `eightGroups?`.
- **Interfaces.** `loopback`, `allInterfaces`, `interface?`, `isOwn`.
-/

namespace RingOverlay.Loopback

open Text

/-! ## Numerals -/

/-- The value of a numeral that names its base: sixteen behind `0x`, eight behind `0`, otherwise ten. -/
def basedNumeral? : List Char → Option Nat
  | '0' :: 'x' :: digits => numeralIn? 16 digits
  | '0' :: 'X' :: digits => numeralIn? 16 digits
  | '0' :: digits => numeralIn? 8 ('0' :: digits)
  | digits => numeralIn? 10 digits

/-- The number below `room` that parts make: a byte each from the highest on, all bytes that are left for
    the last one. -/
def joinParts? : Nat → List Nat → Option Nat
  | _, [] => none
  | room, [last] => if last < room then some last else none
  | room, part :: rest =>
    if part < 256 ∧ 256 < room then
      (joinParts? (room / 256) rest).map (part * (room / 256) + ·)
    else none

/-! ## Groups -/

/-- The value of a decimal numeral below 256 without leading zeros. -/
def octet? (s : String) : Option Nat :=
  let cs := s.toList
  if 1 < cs.length ∧ cs.head? = some '0' then none else (numeralIn? 10 cs).filter (· < 256)

/-- The number that four such numerals between dots make. -/
def dotted? (s : String) : Option Nat :=
  match (s.splitOn ".").mapM octet? with
  | some [a, b, c, d] => some (((a * 256 + b) * 256 + c) * 256 + d)
  | _ => none

/-- The value of a group: one to four hexadecimal digits. -/
def group? (s : String) : Option Nat := if s.length ≤ 4 then numeralIn? 16 s.toList else none

/-- The groups that parts make. Four numerals between dots may stand in the place of the last two. -/
def groups? : List String → Option (List Nat)
  | [] => some []
  | [last] =>
    match dotted? last with
    | some n => some [n / 0x10000, n % 0x10000]
    | none => (group? last).map ([·])
  | part :: rest => do return (← group? part) :: (← groups? rest)

/-- The groups of a text, none of an empty one. -/
def groupsOf? (s : String) : Option (List Nat) :=
  if s.isEmpty then some [] else groups? (s.splitOn ":")

/-- The eight groups of a text. Two colons in one place stand for all groups that are left out, at least
    one; numerals between dots may not stand in front of them. -/
def eightGroups? (s : String) : Option (List Nat) :=
  match s.splitOn "::" with
  | [whole] => (groupsOf? whole).filter (·.length = 8)
  | [front, back] => do
    let front ← if front.toList.contains '.' then none else groupsOf? front
    let back ← groupsOf? back
    let given := front.length + back.length
    if given < 8 then some (front ++ List.replicate (8 - given) 0 ++ back) else none
  | _ => none

/-- A text without the zone behind it: a percent sign and a number of 32 bits. -/
def withoutZone (s : String) : String :=
  match s.splitOn "%" with
  | [shown, zone] =>
    if ((numeralIn? 10 zone.toList).filter (· < 0x100000000)).isSome then shown else s
  | _ => s

/-! ## Interfaces -/

/-- The interface that a host reaches itself through. -/
def loopback : Nat := 0x7f000001

/-- The number that stands for all interfaces of a host. -/
def allInterfaces : Nat := 0

/-- The interface that eight groups name. -/
def ofGroups? : List Nat → Option Nat
  | [0, 0, 0, 0, 0, 0, 0, 0] => some allInterfaces
  | [0, 0, 0, 0, 0, 0xffff, high, low] => some (high * 0x10000 + low)
  | _ => none

/-- The number of an interface. -/
def interface? (host : String) : Option Nat :=
  if host.toLower = "localhost" then some loopback
  else
    match eightGroups? (withoutZone host) with
    | some groups => ofGroups? groups
    | none => ((host.splitOn ".").mapM fun part => basedNumeral? part.toList).bind (joinParts? 0x100000000)

/-- Whether every host has an interface. -/
def isOwn (interface : Nat) : Bool := interface = allInterfaces || interface / 0x1000000 = 127

end RingOverlay.Loopback
