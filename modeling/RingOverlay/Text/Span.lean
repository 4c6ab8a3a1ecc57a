import RingOverlay.Text.Numeral

/-!
# `RingOverlay.Text.Span` — written lengths of time

A length of time in milliseconds, written in seconds from one second on and in milliseconds below.

## Contents
- `trimmedFraction`, the digits after the point without zeros at the end.
- `span`.
-/

namespace RingOverlay.Text

/-- The thousandths `n` as three digits after a point, zeros at the end left out; nothing for 0. -/
def trimmedFraction (n : Nat) : List Char :=
  let kept := ((paddedDigits 3 n).reverse.dropWhile (· == '0')).reverse
  if kept.isEmpty then [] else '.' :: kept

/-- A length of `ms` milliseconds: `1.009s`, `2s`, `10ms`, and `0ns` for none. -/
def span (ms : Nat) : String :=
  if 1000 ≤ ms then String.ofList (digits (ms / 1000) ++ trimmedFraction (ms % 1000)) ++ "s"
  else if 0 < ms then String.ofList (digits ms) ++ "ms"
  else "0ns"

end RingOverlay.Text
