/-!
# `RingOverlay.Decimal.Shortest` — the fewest digits that denote a binary number

A binary number `m * 2^q` stands for an interval of reals, those that round to it. Of the decimal
numbers in that interval the ones with the fewest digits are of interest, and of these the nearest.

## Contents
- **Interval.** `Rounding`, the value and its interval as fractions of one denominator.
- **Grids.** `leadingExponent`, `nearestOn?`.
- **Choice.** `shortest`, `stripZeros`.
-/

namespace RingOverlay.Decimal

/-- A positive value and the interval of reals that round to it, as numerators over `denominator`. -/
structure Rounding where
  low : Nat
  value : Nat
  high : Nat
  denominator : Nat
  /-- Whether the ends of the interval belong to it. -/
  closed : Bool
  deriving Inhabited, Repr

/-- The interval of `m * 2^q`. A half step lies on either side; below a power of two (`narrow`) the
    steps are half as long. Ends round to even `m`. -/
def Rounding.ofBinary (m : Nat) (q : Int) (narrow : Bool) : Rounding :=
  let scale := Nat.pow 2 (q - 2).toNat
  { low := (4 * m - if narrow then 1 else 2) * scale
    value := 4 * m * scale
    high := (4 * m + 2) * scale
    denominator := Nat.pow 2 (2 - q).toNat
    closed := m % 2 = 0 }

/-- Whether `n * 10^e` lies in the interval. -/
def Rounding.contains (r : Rounding) (n : Nat) (e : Int) : Bool :=
  let x := n * Nat.pow 10 e.toNat * r.denominator
  let scale := Nat.pow 10 (-e).toNat
  if r.closed then r.low * scale ≤ x ∧ x ≤ r.high * scale
  else r.low * scale < x ∧ x < r.high * scale

/-- The exponent `e` for which the value lies between `10^e` and `10^(e+1)`, searched upward from
    `start` in at most `fuel` steps. -/
def Rounding.leadingExponent (r : Rounding) (start : Int) : Nat → Int
  | 0 => start
  | fuel + 1 =>
    let next := start + 1
    let power := Nat.pow 10 next.toNat * r.denominator
    if r.value * Nat.pow 10 (-next).toNat < power then start else r.leadingExponent next fuel

/-- The multiple of `10^e` in the interval that is nearest to the value; of two equally near ones the
    even one. -/
def Rounding.nearestOn? (r : Rounding) (e : Int) : Option Nat :=
  let numerator := r.value * Nat.pow 10 (-e).toNat
  let unit := r.denominator * Nat.pow 10 e.toNat
  let below := numerator / unit
  let rest := numerator % unit
  let upFirst := unit < 2 * rest ∨ (unit = 2 * rest ∧ below % 2 = 1)
  let candidates := if upFirst then [below + 1, below] else [below, below + 1]
  candidates.find? fun n => n ≠ 0 ∧ r.contains n e

/-- Takes zeros off the end of a number and counts them into its exponent, at most `fuel`. -/
def stripZeros : Nat → Nat → Int → Nat × Int
  | 0, n, e => (n, e)
  | fuel + 1, n, e => if n % 10 = 0 then stripZeros fuel (n / 10) (e + 1) else (n, e)

/-- The digits `n` and the exponent `e` of the shortest decimal number `n * 10^e` that rounds to the
    value. Seventeen digits always suffice for a number of 53 bits. -/
def Rounding.shortest (r : Rounding) : Nat × Int :=
  let lead := r.leadingExponent (-330) 700
  let hit := (List.range 17).findSome? fun (k : Nat) =>
    let e := lead - (k : Int)
    (r.nearestOn? e).map fun n => (n, e)
  let (n, e) := hit.getD (r.value, 0)
  stripZeros 17 n e

end RingOverlay.Decimal
