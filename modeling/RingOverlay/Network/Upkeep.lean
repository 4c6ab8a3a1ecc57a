import RingOverlay.Network.Inbound

/-!
# `RingOverlay.Network.Upkeep` — the rounds that keep the ring together

A member runs these steps again and again. Each reports its faults and goes on; the next round tries
again.

## Contents
- **Entering.** `bootstrap`, `enter`, `announceIfReady`.
- **Rounds.** `stabilizeRound`, `checkRound`, `fingerRound`.
-/

namespace RingOverlay.Network

/-- Records whether the member at position `k` has announced itself. -/
def setAnnounced (net : Network) (k : Nat) (b : Bool) : Network :=
  net.update k fun m => { m with announced := b }

/-- Makes the member a ring of its own. -/
def bootstrap (net : Network) (k : Nat) : Network :=
  ((net.reset k).setAnnounced k false).note (.bootstrapped (net.self k))

/-- Announces, once, that the member stands between two others. -/
def announceIfReady (net : Network) (k : Nat) : Network :=
  let m := net.member k
  match m.table.successor?, m.table.predecessor with
  | some successor, some predecessor =>
    if successor = m.self ∨ m.announced then net
    else ((net.setAnnounced k true).note (.inRing m.self predecessor successor)).publish k
      (.joined successor predecessor)
  | _, _ => net

/-- Joins through an endpoint and runs one round, so that the member knows its neighbours. -/
def enter (t : Transport) (k : Nat) (through : String) : Attempt Unit := fun net =>
  match join t k through net with
  | (.error fault, net) => (.error fault, net)
  | (.ok _, net) =>
    match stabilize t k net with
    | (.error fault, net) => (.error fault, net)
    | (.ok _, net) => (.ok (), net.announceIfReady k)

/-- What is left of an attempt whose fault is only reported. -/
def reported {α : Type} (report : RingFault → Note) : Except RingFault α × Network → Network
  | (.ok _, net) => net
  | (.error fault, net) => net.note (report fault)

/-- The part of a round in which the member has a ring to keep. -/
def keepRing (t : Transport) (k : Nat) (net : Network) : Network :=
  (reported .stabilizeFailed (stabilize t k net)).announceIfReady k

/-- One round of keeping the successor right. A member that has lost its ring first joins again, through
    the endpoint that it is set up with. -/
def stabilizeRound (t : Transport) (k : Nat) (net : Network) : Network :=
  if (net.peerSuccessor? k).isSome then keepRing t k net
  else
    let net := net.setAnnounced k false
    match (net.member k).joinThrough with
    | none => keepRing t k net
    | some through =>
      match join t k through (net.note (.rejoining (net.self k) through)) with
      | (.error fault, net) => net.note (.rejoinFailed through fault)
      | (.ok _, net) => keepRing t k net

/-- One round of checking the predecessor. -/
def checkRound (t : Transport) (k : Nat) (net : Network) : Network :=
  reported .checkFailed (check t k net)

/-- The slot that a value of the cursor picks: 1 to 255 in turn. -/
def fingerOfCursor (cursor : UInt64) : Nat := cursor.toNat % 255 + 1

/-- Moves the cursor on. -/
def moveCursor (net : Network) (k : Nat) : Network :=
  net.update k fun m => { m with cursor := m.cursor + 1 }

/-- Refreshes up to `count` slots; a fault ends the round. -/
def fixFingers (t : Transport) (k : Nat) : Nat → Network → Network
  | 0, net => net
  | count + 1, net =>
    let index := fingerOfCursor (net.member k).cursor
    match fixFinger t k index ((net.moveCursor k).note (.fixingFinger index)) with
    | (.error fault, net) => net.note (.fingerFailed index fault)
    | (.ok _, net) => fixFingers t k count net

/-- One round of refreshing slots. -/
def fingerRound (t : Transport) (k : Nat) (net : Network) : Network :=
  fixFingers t k (net.member k).fingersPerTick net

end RingOverlay.Network
