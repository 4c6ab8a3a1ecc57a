import RingOverlay.Text.Numeral
import RingOverlay.Text.Unprintable

/-!
# `RingOverlay.Text.Quoted` — texts between double quotes

The form in which reports show a text: between double quotes, with a backslash in front of quotes and
backslashes, names for the usual controls and numbers for all other unprintable characters.

## Contents
- `quotedChar`, `quoted`.
-/

namespace RingOverlay.Text

/-- One character of a quoted text. -/
def quotedChar (c : Char) : List Char :=
  if c = '"' then ['\\', '"']
  else if c = '\\' then ['\\', '\\']
  else if c = '\n' then ['\\', 'n']
  else if c = '\r' then ['\\', 'r']
  else if c = '\t' then ['\\', 't']
  else if c = '\x00' then ['\\', '0']
  else if isUnprintable c then ['\\', 'u', '\x7b'] ++ hexDigits c.toNat ++ ['\x7d']
  else [c]

/-- A text between double quotes. -/
def quoted (text : String) : String :=
  "\"" ++ String.ofList (text.toList.flatMap quotedChar) ++ "\""

end RingOverlay.Text
