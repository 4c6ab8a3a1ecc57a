import RingOverlay.Network.Serving
import RingOverlay.Scheduler.Basic
import RingOverlay.Settings.Basic

/-!
# `RingOverlay.Network.Setup` — members made of settings

## Contents
- `PeerFault`, why there is no peer, and `Settings.admit`, whether settings make one.
- `Settings.member`, the member that settings make.
- `enterRing` and `depart`, the first and the last step of a member's life.
-/

namespace RingOverlay

/-- Why a peer cannot be had, or what went wrong in it. -/
inductive PeerFault where
  | transport (fault : TransportFault)
  | ring (fault : RingFault)
  | settings (fault : SettingsFault)
  /-- It asks for more workers than a scheduler can have. The program ends on this. -/
  | workers
  deriving DecidableEq, Inhabited, Repr

/-- The wording of a fault. -/
def PeerFault.message : PeerFault → String
  | transport fault => "Network error: " ++ fault.message
  | ring fault => "Chord protocol error: " ++ fault.message
  | settings fault => "Configuration error: " ++ fault.message
  | workers => Scheduler.tooManyWorkers

/-- Whether settings make a peer: they pass the checks, and a scheduler can have their workers. -/
def Settings.admit (s : Settings) : Except PeerFault Unit :=
  match s.validate with
  | .error fault => .error (.settings fault)
  | .ok () => if s.workers.toNat ≤ Scheduler.mostWorkers then .ok () else .error .workers

/-- The member that settings make at an endpoint. `id` is its point where the settings give none. -/
def Settings.member (s : Settings) (id : RingId) (endpoint : String) : Member where
  self := ⟨s.nodeId.getD id, endpoint⟩
  hopLimit := s.maxLookupHops
  joinThrough := s.join
  fingersPerTick := s.fingersPerTick.toNat

namespace Network

/-- Makes a ring of its own for the member at position `k`, or lets it join one. A join that fails is
    only reported; the member tries again in later rounds. -/
def enterRing (t : Transport) (k : Nat) (s : Settings) (net : Network) : Network :=
  let net := match s.join with
    | none => net.bootstrap k
    | some through => reported (.startJoinFailed through) (enter t k through net)
  net.note (.running (net.self k))

/-- Lets the member at position `k` leave its ring. A fault is only reported. -/
def depart (t : Transport) (k : Nat) (net : Network) : Network :=
  let net := reported .leaveFailed (leave t k net)
  net.note (.shutDown (net.self k))

end Network

end RingOverlay
