import RingOverlay.Node

/-!
# `RingOverlay.Event` — changes of the ring that a member announces

Layers that place data on the ring follow these events. A subscriber reads them from a buffer of
limited size and learns how many it missed.

## Contents
- `RingEvent` and its form in reports, `tagged`.
- `Mailbox.read`, what a subscriber sees of the events since it last looked.
-/

namespace RingOverlay

/-- A change of the ring that a member announces. -/
inductive RingEvent where
  /-- The member has become part of the ring between two others. -/
  | joined (successor predecessor : Node)
  /-- A newcomer has become the predecessor; it owns the arc from `old` to itself. -/
  | predecessorChanged (old : Option Node) (new : Node)
  /-- A member has left; its predecessor takes its arc over. -/
  | left (node predecessor : Node)
  | successorFailed (node : Node)
  | predecessorFailed (node : Node)
  deriving DecidableEq, Inhabited, Repr

namespace RingEvent

/-- The form that names every part. -/
def tagged : RingEvent → String
  | joined s p =>
    "Joined \x7b successor: " ++ s.tagged ++ ", predecessor: " ++ p.tagged ++ " \x7d"
  | predecessorChanged old new =>
    "PredecessorChanged \x7b old: " ++ Node.taggedOption old ++ ", new: " ++ new.tagged ++ " \x7d"
  | left n p => "Left \x7b node: " ++ n.tagged ++ ", predecessor: " ++ p.tagged ++ " \x7d"
  | successorFailed n => "SuccessorFailed(" ++ n.tagged ++ ")"
  | predecessorFailed n => "PredecessorFailed(" ++ n.tagged ++ ")"

end RingEvent

namespace Mailbox

/-- How many events are kept for a subscriber that does not look. -/
def capacity : Nat := 64

/-- What a subscriber finds. -/
inductive Entry where
  /-- So many events before the next one were lost. -/
  | lagged (count : Nat)
  | event (e : RingEvent)
  deriving DecidableEq, Repr

/-- What a subscriber sees of the events since it last looked, given newest first: the last `capacity` of
    them, the oldest first, and before these the number of those lost. -/
def read (events : List RingEvent) : List Entry :=
  let lost := events.length - capacity
  (if lost = 0 then [] else [.lagged lost]) ++ (events.take capacity).reverse.map .event

end Mailbox

end RingOverlay
