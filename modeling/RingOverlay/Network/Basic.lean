import RingOverlay.Journal
import RingOverlay.Table
import RingOverlay.Wire.Message

/-!
# `RingOverlay.Network.Basic` — members that share one network

A network is one value: its members, the endpoints at which some of them answer, and what has been
reported and asked so far. A step of the protocol is a function on that value.

## Contents
- **State.** `Member`, `Call`, `ScriptedAnswer`, `Network`.
- **Membership.** `Network.member`, `add`, `register`, `unregister`, `drop`, `find?`.
- **Steps.** `Act`, `Attempt`, `Transport`.
- **One member.** Readings such as `peerSuccessor?`, and changes of its table and events.
- **Laws of the members.** What a change of one member does to each.
-/

namespace RingOverlay

/-! ## State -/

/-- A member: who it is, how it is set up, and what it knows. -/
structure Member where
  self : Node
  /-- A request that has been forwarded so often is not forwarded again. -/
  hopLimit : UInt32
  /-- The endpoint through which it joins again after it has lost the ring. -/
  joinThrough : Option String
  fingersPerTick : Nat
  table : Table := .empty
  /-- Counts the slots refreshed so far; it picks the next one. -/
  cursor : UInt64 := 0
  /-- Whether it has announced that it is part of the ring. -/
  announced : Bool := false
  /-- The events announced since its subscriber last looked, newest first. -/
  events : List RingEvent := []
  /-- Whether it still exists. One that does not exist any more answers nobody. -/
  alive : Bool := true
  deriving Inhabited

/-- A request that a member sent. -/
structure Call where
  method : Method
  endpoint : String
  request : method.Request

/-- An answer that the next requests to an endpoint get instead of the network's. -/
structure ScriptedAnswer where
  method : Method
  endpoint : String
  answer : Except TransportFault method.Response
  /-- How many more requests get it. -/
  uses : Nat

/-- Members that share one network. A member is known by its position in `members`, which it keeps. -/
structure Network where
  members : List Member := []
  /-- The member that is registered at an endpoint, at most one each. -/
  registry : List (String × Nat) := []
  /-- Answers that take the network's place, the oldest first. -/
  script : List ScriptedAnswer := []
  /-- The requests that members sent, the latest first. -/
  calls : List Call := []
  /-- What members reported, the latest first. -/
  journal : List Note := []
  /-- The time of day in milliseconds. -/
  clock : Int64 := 1
  deriving Inhabited

namespace Network

/-! ## Membership -/

/-- The member at position `k`. -/
def member (net : Network) (k : Nat) : Member := (net.members[k]?).getD default

/-- Changes the member at position `k`. -/
def update (net : Network) (k : Nat) (f : Member → Member) : Network :=
  { net with members := net.members.modify k f }

/-- Adds a member that does not answer at any endpoint yet. Its position is the number of members
    before it. -/
def add (net : Network) (m : Member) : Network := { net with members := net.members ++ [m] }

/-- The position of the member that answers at an endpoint. -/
def find? (net : Network) (endpoint : String) : Option Nat :=
  ((net.registry.lookup endpoint)).filter fun k => (net.members[k]?).any (·.alive)

/-- Lets the member at position `k` answer at its endpoint, in the place of any other. -/
def register (net : Network) (k : Nat) : Network :=
  let endpoint := (net.member k).self.endpoint
  { net with registry := (endpoint, k) :: net.registry.filter (·.1 ≠ endpoint) }

/-- Takes the entry of an endpoint away, and tells whether there was one. -/
def unregister (net : Network) (endpoint : String) : Bool × Network :=
  ((net.registry.lookup endpoint).isSome,
    { net with registry := net.registry.filter (·.1 ≠ endpoint) })

/-- Ends the member at position `k`. Its endpoint stays taken but nobody answers there. -/
def drop (net : Network) (k : Nat) : Network := net.update k fun m => { m with alive := false }

end Network

/-! ## Steps -/

/-- A step that always completes: what comes of it, and the network afterwards. -/
abbrev Act (α : Type) := Network → α × Network

/-- A step that can fail. What it did before it failed stays done. -/
abbrev Attempt (α : Type) := Act (Except RingFault α)

/-- Carries a request of a member to an endpoint and brings the answer back. -/
abbrev Transport := (m : Method) → String → m.Request → Act (Except TransportFault m.Response)

namespace Network

/-! ## Readings -/

/-- The node of the member at position `k`. -/
def self (net : Network) (k : Nat) : Node := (net.member k).self

/-- The table of the member at position `k`. -/
def table (net : Network) (k : Nat) : Table := (net.member k).table

/-- The successor of the member at position `k`, if it is another node. -/
def peerSuccessor? (net : Network) (k : Nat) : Option Node :=
  (net.table k).peerSuccessor? (net.self k)

/-- The predecessor of the member at position `k`. -/
def predecessor? (net : Network) (k : Nat) : Option Node := (net.table k).predecessor

/-- The node in a slot of the member at position `k`, which stands in itself where the slot is unknown. -/
def fingerOrSelf (net : Network) (k : Nat) (i : Fin 256) : Node :=
  ((net.table k).finger i).getD (net.self k)

/-- The predecessor of the member at position `k`, which stands in itself where none is known. -/
def predecessorOrSelf (net : Network) (k : Nat) : Node := (net.predecessor? k).getD (net.self k)

/-! ## Changes -/

/-- Reports a note. -/
def note (net : Network) (n : Note) : Network := { net with journal := n :: net.journal }

/-- Changes the table of the member at position `k`. -/
def modifyTable (net : Network) (k : Nat) (f : Table → Table) : Network :=
  net.update k fun m => { m with table := f m.table }

/-- Announces an event to the subscriber of the member at position `k`. -/
def publish (net : Network) (k : Nat) (e : RingEvent) : Network :=
  (net.note (.published e)).update k fun m => { m with events := e :: m.events }

/-- Puts a node into a slot that does not hold it yet. -/
def setFinger (net : Network) (k : Nat) (i : Fin 256) (n : Node) : Network :=
  if (net.table k).finger i = some n then net
  else (net.modifyTable k (·.setFinger i n)).note (.fingerSet i (net.self k).id n)

/-- Makes a slot unknown. -/
def clearFinger (net : Network) (k : Nat) (i : Fin 256) : Network :=
  net.modifyTable k (·.clearFinger i)

/-- Makes a node the predecessor. -/
def setPredecessor (net : Network) (k : Nat) (n : Node) : Network :=
  (net.note (.predecessorSet (net.self k).id n)).modifyTable k (·.setPredecessor n)

/-- Makes the predecessor unknown. -/
def clearPredecessor (net : Network) (k : Nat) : Network := net.modifyTable k (·.clearPredecessor)

/-- Removes every entry of a point from the table. -/
def remove (net : Network) (k : Nat) (id : RingId) : Network :=
  (net.modifyTable k (·.remove id)).note (.removed id (net.self k).id)

/-- Forgets everything in the table. -/
def reset (net : Network) (k : Nat) : Network :=
  (net.modifyTable k fun _ => .empty).note (.tableReset (net.self k))

/-! ## Laws of the members

A change of one member leaves all others as they are, and a note leaves all members as they are. -/

/-- No member is added or lost. -/
@[simp] theorem length_members_update (net : Network) (k : Nat) (f : Member → Member) :
    (net.update k f).members.length = net.members.length := by
  simp [update]

/-- The member that is changed. -/
theorem member_update_self (net : Network) {k : Nat} (f : Member → Member)
    (h : k < net.members.length) : (net.update k f).member k = f (net.member k) := by
  simp [member, update, h]

/-- Any other member. -/
theorem member_update_of_ne (net : Network) {k l : Nat} (f : Member → Member) (h : k ≠ l) :
    (net.update k f).member l = net.member l := by
  simp [member, update, h]

/-- A note changes no member. -/
@[simp] theorem member_note (net : Network) (n : Note) (k : Nat) :
    (net.note n).member k = net.member k := rfl

/-- The table of the member whose table is changed. -/
theorem table_modifyTable_self (net : Network) {k : Nat} (f : Table → Table)
    (h : k < net.members.length) : (net.modifyTable k f).table k = f (net.table k) := by
  rw [table, modifyTable, member_update_self net _ h, table]

/-- The table of any other member. -/
theorem table_modifyTable_of_ne (net : Network) {k l : Nat} (f : Table → Table) (h : k ≠ l) :
    (net.modifyTable k f).table l = net.table l := by
  rw [table, modifyTable, member_update_of_ne net _ h, table]

end Network

end RingOverlay
