import RingOverlay.Event
import RingOverlay.Fault
import RingOverlay.Text.Span

/-!
# `RingOverlay.Journal` — what members report while they work

Every step of a member leaves notes. A note is kept as what happened; its importance and wording are
read off it only where it is shown.

## Contents
- **Levels.** `Level`, their order and names, `Level.ofName?` for a threshold.
- **Notes.** `Note`, `Note.level`, `Note.text`, `Note.line`.
- **Selection.** `Journal.lines`, the lines at a level and above.
-/

namespace RingOverlay

/-! ## Levels -/

/-- How important a note is. -/
inductive Level where
  | error | warn | info | debug | trace
  deriving DecidableEq, Inhabited, Repr

namespace Level

/-- More important levels have smaller ranks. -/
def rank : Level → Nat
  | error => 1
  | warn => 2
  | info => 3
  | debug => 4
  | trace => 5

/-- The name of a level in a line. -/
def name : Level → String
  | error => "ERROR"
  | warn => "WARN"
  | info => "INFO"
  | debug => "DEBUG"
  | trace => "TRACE"

/-- The levels, most important first. -/
def all : List Level := [error, warn, info, debug, trace]

end Level

/-- A threshold: nothing at all, or every note at a level and above. -/
abbrev Threshold := Option Level

namespace Threshold

/-- The ASCII upper-case form of a character. -/
def upper (c : Char) : Char :=
  if 'a' ≤ c ∧ c ≤ 'z' then Char.ofNat (c.toNat - 32) else c

/-- The threshold of a name, in any case of its ASCII letters. -/
def ofName? (name : String) : Option Threshold :=
  let wanted := name.toList.map upper
  if wanted = "OFF".toList then some none
  else (Level.all.find? fun l => l.name.toList = wanted).map some

/-- Whether a note at level `l` is shown. -/
def admits (t : Threshold) (l : Level) : Bool :=
  match t with
  | none => false
  | some bound => l.rank ≤ bound.rank

end Threshold

/-! ## Notes -/

/-- What a member reports. -/
inductive Note where
  -- the routing table
  | fingerSet (index : Nat) (holder : RingId) (node : Node)
  | tableReset (holder : Node)
  | predecessorSet (holder : RingId) (node : Node)
  | removed (id holder : RingId)
  | published (event : RingEvent)
  -- asking others
  | joining (self : Node) (through : String)
  | joined (self successor : Node)
  | joinForwarded (next : Node) (hop : UInt32)
  | successorFailed (successor : Node) (fault : TransportFault)
  | successorCloser (old new : Node)
  | predecessorFailed (predecessor : Node) (fault : TransportFault)
  | lookupForwarded (id : RingId) (next : Node) (hop : UInt32)
  | handedOver (self successor : Node)
  -- answering others
  | joinedLone (source self : Node)
  | joinElsewhere (source self : Node)
  | becameSuccessor (source self : Node)
  | becamePredecessor (source self : Node)
  | notifierAdopted (self source : Node)
  | leaving (node predecessor : Node)
  | joinReceived
  | requestFailed (method : String) (fault : RingFault)
  -- maintenance
  | bootstrapped (self : Node)
  | rejoining (self : Node) (through : String)
  | rejoinFailed (through : String) (fault : RingFault)
  | stabilizeFailed (fault : RingFault)
  | checkFailed (fault : RingFault)
  | fixingFinger (index : Nat)
  | fingerFailed (index : Nat) (fault : RingFault)
  | inRing (self predecessor successor : Node)
  -- the life of a peer
  | startJoinFailed (through : String) (fault : RingFault)
  | running (self : Node)
  | shuttingDown (self : Node)
  | leaveFailed (fault : RingFault)
  | shutDown (self : Node)
  -- the scheduler
  | scheduling (job : String) (period : Nat)
  | runningOnce (job : String)
  | stoppedScheduling (job : String)
  | stoppingScheduler (tasks : Nat)
  deriving DecidableEq, Inhabited, Repr

namespace Note

/-- How important a note is. -/
def level : Note → Level
  | fingerFailed .. | startJoinFailed .. => .error
  | successorFailed .. | predecessorFailed .. | requestFailed .. | rejoinFailed ..
  | stabilizeFailed .. | checkFailed .. | leaveFailed .. => .warn
  | joining .. | joined .. | handedOver .. | joinedLone .. | becameSuccessor ..
  | becamePredecessor .. | notifierAdopted .. | leaving .. | bootstrapped .. | rejoining ..
  | inRing .. | running .. | shuttingDown .. | shutDown .. | stoppingScheduler .. => .info
  | fingerSet .. | tableReset .. | predecessorSet .. | removed .. | published ..
  | joinForwarded .. | successorCloser .. | lookupForwarded .. | joinElsewhere ..
  | joinReceived | fixingFinger .. | scheduling .. | runningOnce .. | stoppedScheduling .. =>
    .debug

/-- The wording of a note. -/
def text : Note → String
  | fingerSet i holder n => s!"Finger {i} of {holder} set to {n}"
  | tableReset holder => s!"Router of {holder} reset"
  | predecessorSet holder n => s!"Predecessor of {holder} set to {n}"
  | removed id holder => s!"Removed {id} from router of {holder}"
  | published e => "Ring event: " ++ e.tagged
  | joining self through => s!"{self} joining through {through}"
  | joined self s => s!"{self} joined with successor {s}"
  | joinForwarded next hop => s!"Forwarding join to {next} (hop {hop})"
  | successorFailed s fault => s!"Successor {s} failed during stabilize: {fault}"
  | successorCloser old new => s!"Stabilize: successor {old} -> {new}"
  | predecessorFailed p fault => s!"Predecessor {p} failed check: {fault}"
  | lookupForwarded id next hop => s!"Lookup of {id} forwarded to {next} (hop {hop})"
  | handedOver self s => s!"{self} left the ring, handing over to {s}"
  | joinedLone source self => s!"{source} joined lone node {self}"
  | joinElsewhere source self => s!"Join of {source} does not belong at {self}, forwarding"
  | becameSuccessor source self => s!"{source} becomes successor of {self}"
  | becamePredecessor source self => s!"{source} becomes predecessor of {self}"
  | notifierAdopted self source => s!"{self} has no successor, adopting notifier {source}"
  | leaving n p => s!"{n} is leaving, {p} takes over its keys"
  | joinReceived => "Received join request from None"
  | requestFailed method fault => s!"{method} failed: {fault}"
  | bootstrapped self => s!"{self} bootstrapped a new ring"
  | rejoining self through => s!"{self} has no successor, rejoining through {through}"
  | rejoinFailed through fault => s!"Rejoin through {through} failed: {fault}"
  | stabilizeFailed fault => s!"Stabilize failed: {fault}"
  | checkFailed fault => s!"Predecessor check failed: {fault}"
  | fixingFinger i => s!"Fixing finger {i}"
  | fingerFailed i fault => s!"Failed to fix finger {i}: {fault}"
  | inRing self p s => s!"{self} is part of the ring between {p} and {s}"
  | startJoinFailed through fault =>
    s!"Failed to join through {through}: {fault}, retrying on stabilize"
  | running self => s!"{self} is running"
  | shuttingDown self => s!"Shutting down {self}"
  | leaveFailed fault => s!"Graceful leave failed: {fault}"
  | shutDown self => s!"{self} shut down"
  | scheduling job period => "Scheduling " ++ job ++ " every " ++ Text.span period
  | runningOnce job => s!"Running {job}"
  | stoppedScheduling job => s!"Stopped scheduling {job}"
  | stoppingScheduler tasks => s!"Stopping scheduler, {tasks} task(s) in flight"

/-- A note as a line: level and wording. -/
def line (n : Note) : String := n.level.name ++ " " ++ n.text

end Note

/-- The lines of the notes that a threshold admits, in order. -/
def Journal.lines (t : Threshold) (notes : List Note) : List String :=
  (notes.filter fun n => t.admits n.level).map Note.line

end RingOverlay
