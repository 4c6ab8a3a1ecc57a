import RingOverlay.Status
import RingOverlay.Text.Percent
import RingOverlay.Text.Utf8
import RingOverlay.Wire.Field

/-!
# `RingOverlay.Wire.Header` — a status on its way to the caller

The message of a status travels in a header. The sender writes blanks, controls and all bytes outside
ASCII as `%` and two digits, but leaves a `%` of the message as it is. So the receiver takes `%` and two
digits of the message itself for a byte, too.

## Contents
- `Status.received`.
-/

namespace RingOverlay

/-- A status as the caller gets it. A message whose bytes are no text makes it unknown. -/
def Status.received (s : Status) : Status :=
  match Text.utf8Text (Text.percentDecode (Wire.textBytes s.message)) with
  | .ok message => { s with message }
  | .error flaw => ⟨.unknown, "Error deserializing status message header: " ++ flaw.message⟩

end RingOverlay
