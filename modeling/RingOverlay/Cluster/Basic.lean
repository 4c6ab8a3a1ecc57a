import RingOverlay.Network.Setup
import RingOverlay.Scheduler.Run

/-!
# `RingOverlay.Cluster.Basic` — named peers on one network and one clock

A peer is a member with settings and a scheduler that runs its chores. Peers of a cluster share a network
and a clock. A member may also be put on the network by itself, without a scheduler.

## Contents
- **State.** `Chore`, `Peer`, `Cluster`.
- **Membership.** `addMember`, `addPeer`, `remove`.
- **Life of a peer.** `start`, `shutdown`.
- **Time.** `settle`, `advance`.
-/

namespace RingOverlay

/-- What a peer does again and again. -/
inductive Chore where
  | stabilize | checkPredecessor | fixFingers
  deriving DecidableEq, Inhabited, Repr

namespace Chore

/-- The name of a chore in reports. -/
def name : Chore → String
  | stabilize => "stabilize"
  | checkPredecessor => "check_predecessor"
  | fixFingers => "fix_fingers"

/-- The chores in the order in which a peer starts them. -/
def all : List Chore := [stabilize, checkPredecessor, fixFingers]

/-- The time between two runs of a chore. -/
def interval (s : Settings) : Chore → Nat
  | stabilize => s.stabilizeInterval.toNat
  | checkPredecessor => s.checkInterval.toNat
  | fixFingers => s.fingersInterval.toNat

/-- Does a chore of the member at position `k`. -/
def run (t : Transport) (k : Nat) : Chore → Network → Network
  | stabilize => Network.stabilizeRound t k
  | checkPredecessor => Network.checkRound t k
  | fixFingers => Network.fingerRound t k

/-- A chore as a job. It takes no time. -/
def job (c : Chore) : Scheduler.Job Chore := ⟨c.name, 0, c⟩

end Chore

/-- What runs a peer's chores, and how it is set up. -/
structure Runner where
  settings : Settings
  scheduler : Scheduler Chore
  deriving Inhabited

/-- A member of the network at position `index`; a full peer has a runner too. -/
structure Peer where
  index : Nat
  runner : Option Runner := none
  deriving Inhabited

/-- Named peers on one network, and the time in milliseconds. -/
structure Cluster where
  network : Network := {}
  peers : List (String × Peer) := []
  now : Nat := 0
  deriving Inhabited

namespace Cluster

/-- The peer of a name. -/
def find? (c : Cluster) (name : String) : Option Peer := c.peers.lookup name

/-- Puts a peer in under its name. -/
def setPeer (c : Cluster) (name : String) (p : Peer) : Cluster :=
  if c.peers.any (·.1 = name) then
    { c with peers := c.peers.map fun (n, q) => if n = name then (n, p) else (n, q) }
  else { c with peers := c.peers ++ [(name, p)] }

/-- Changes the network. -/
def mapNetwork (c : Cluster) (f : Network → Network) : Cluster := { c with network := f c.network }

/-- Carries out what a scheduler of the member at position `k` has set going. -/
def perform (k : Nat) (net : Network) : Nat × Scheduler.Happening Chore → Network
  | (_, .started job) => job.action.run Network.transport k net
  | (_, .finished _) => net
  | (_, .noted n) => net.note n

/-- Lets the scheduler of a peer make a step, and carries out what it has set going. A peer without a
    scheduler does nothing. -/
def onScheduler (c : Cluster) (name : String) (step : Scheduler Chore → Scheduler Chore) : Cluster :=
  match c.find? name with
  | some { index, runner := some r } =>
    let (happenings, scheduler) := (step r.scheduler).takeHistory
    (c.setPeer name { index, runner := some { r with scheduler } }).mapNetwork
      fun net => happenings.foldl (perform index) net
  | _ => c

/-! ## Membership -/

/-- Ends the peer of a name, if there is one. -/
def remove (c : Cluster) (name : String) : Cluster :=
  match c.find? name with
  | none => c
  | some p =>
    let c := (c.mapNetwork (·.drop p.index)).onScheduler name (·.cancel)
    { c with peers := c.peers.filter (·.1 ≠ name) }

/-- Puts a member on the network under a name, in the place of any other of that name. -/
def addMember (c : Cluster) (name : String) (m : Member) (runner : Option Runner)
    (registered : Bool) : Cluster :=
  let c := c.remove name
  let index := c.network.members.length
  let c := c.mapNetwork fun net =>
    if registered then (net.add m).register index else net.add m
  c.setPeer name { index, runner }

/-- Makes a peer of settings that pass the checks, and returns its node. `id` is its point where the
    settings give none. -/
def addPeer (c : Cluster) (name : String) (settings : Settings) (id : RingId) (endpoint : String)
    (registered : Bool) : Except PeerFault (Node × Cluster) :=
  match settings.admit with
  | .error fault => .error fault
  | .ok () =>
    let m := settings.member id endpoint
    let scheduler := Scheduler.create settings.workers.toNat c.now
    .ok (m.self, c.addMember name m (some { settings, scheduler }) registered)

/-! ## Life of a peer -/

/-- Schedules the chores of a peer. -/
def scheduleChores (settings : Settings) (s : Scheduler Chore) : Scheduler Chore :=
  Chore.all.foldl (fun s c => s.spawn (.every (c.interval settings)) c.job) s

/-- Starts a peer: it makes a ring of its own or joins one, and its chores are scheduled. A join that
    fails is tried again by the chores. They begin when the cluster settles. -/
def start (c : Cluster) (name : String) : Cluster :=
  match c.find? name with
  | some { index, runner := some r } =>
    (c.mapNetwork (Network.enterRing Network.transport index r.settings)).onScheduler name
      (scheduleChores r.settings)
  | _ => c

/-- Shuts a peer down: its chores end and it leaves the ring. It goes on answering. -/
def shutdown (c : Cluster) (name : String) : Cluster :=
  match c.find? name with
  | some { index, runner := some _ } =>
    let c := c.mapNetwork fun net => net.note (.shuttingDown (net.self index))
    (c.onScheduler name (·.shutdown)).mapNetwork (Network.depart Network.transport index)
  | _ => c

/-! ## Time -/

/-- The next time at which a peer has something to do. -/
def nextDue? (c : Cluster) : Option Nat :=
  (c.peers.filterMap fun (_, p) => p.runner.bind fun r => r.scheduler.nextDue?).min?

/-- Moves the clock to `now` and lets every peer do what is due, one after another. -/
def settleAt (now : Nat) (c : Cluster) : Cluster :=
  c.peers.foldl (fun c (name, _) => c.onScheduler name (·.settleAt now)) { c with now }

/-- Lets every peer do what it can while the clock stands still. -/
def settle (c : Cluster) : Cluster := c.settleAt c.now

/-- Moves the clock on to `target` in at most `fuel` leaps. -/
def advanceTo (target : Nat) : Nat → Cluster → Cluster
  | 0, c => c.settleAt target
  | fuel + 1, c =>
    match c.nextDue?.filter (· ≤ target) with
    | none => c.settleAt target
    | some due => advanceTo target fuel (c.settleAt due)

/-- Lets a wait for `ms` milliseconds pass. Each leap takes at least one. -/
def advance (ms : Nat) (c : Cluster) : Cluster :=
  advanceTo (c.now + Scheduler.waitFor ms) (Scheduler.waitFor ms) c.settle

end Cluster

end RingOverlay
