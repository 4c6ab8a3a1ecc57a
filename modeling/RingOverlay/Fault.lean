import RingOverlay.RingId.Text
import RingOverlay.Node
import RingOverlay.Status

/-!
# `RingOverlay.Fault` — what can go wrong between members

Two kinds of fault: `TransportFault` is what a caller learns of a call that failed, `RingFault` is what
a member reports of a step of the protocol. A fault that leaves a member becomes a `Status` and
arrives at the caller as a `TransportFault`; its text is kept on the way.

## Contents
- **Transport.** `TransportFault`, `TransportFault.message`, `TransportFault.ofStatus`.
- **Protocol.** `RingFault`, `RingFault.message`, `RingFault.status`, and the faults of requests:
  `missing`, `noAddress`, `idTaken`, `fingerOutOfRange`.
-/

namespace RingOverlay

/-- What a caller learns of a call that failed. -/
inductive TransportFault where
  | connectionFailed (reason : String)
  | peerUnreachable (reason : String)
  | rejected (reason : String)
  | remote (reason : String)
  | grpc (reason : String)
  | timeout
  deriving DecidableEq, Inhabited, Repr

namespace TransportFault

/-- The wording of a transport fault. -/
def message : TransportFault → String
  | connectionFailed reason => "Connection failed: " ++ reason
  | peerUnreachable reason => "Peer unreachable: " ++ reason
  | rejected reason => "Request rejected: " ++ reason
  | remote reason => "Remote failure: " ++ reason
  | grpc reason => "gRPC error: " ++ reason
  | timeout => "Request timed out"

instance : ToString TransportFault := ⟨message⟩

/-- What the caller makes of a status. -/
def ofStatus (s : Status) : TransportFault :=
  match s.code with
  | .invalidArgument => rejected s.message
  | .unavailable => peerUnreachable s.message
  | .deadlineExceeded => timeout
  | _ => remote s.message

end TransportFault

/-- What a member reports of a step of the protocol that failed. -/
inductive RingFault where
  | invalidId (reason : String)
  | invalidRequest (reason : String)
  | joinFailed (reason : String)
  | lookupFailed (reason : String)
  | hopLimitExceeded (id : String) (limit : UInt32)
  | transport (fault : TransportFault)
  deriving DecidableEq, Inhabited, Repr

namespace RingFault

/-- The wording of a protocol fault. A transport fault keeps its own. -/
def message : RingFault → String
  | invalidId reason => "Invalid node ID: " ++ reason
  | invalidRequest reason => "Invalid request: " ++ reason
  | joinFailed reason => "Failed to join ring: " ++ reason
  | lookupFailed reason => "Lookup failed: " ++ reason
  | hopLimitExceeded id limit => "Lookup for " ++ id ++ " exceeded " ++ toString limit ++ " hops"
  | transport fault => fault.message

instance : ToString RingFault := ⟨message⟩

/-- The status with which a fault leaves the member that raised it. -/
def status (f : RingFault) : Status :=
  { code := match f with
      | invalidId _ | invalidRequest _ => .invalidArgument
      | hopLimitExceeded _ _ => .resourceExhausted
      | transport _ => .unavailable
      | joinFailed _ | lookupFailed _ => .internal
    message := f.message }

/-- What the caller of a member learns of a fault raised there. -/
def remote (f : RingFault) : TransportFault := .ofStatus f.status

/-- A text that should be a point is none. -/
def ofReadError (e : RingId.ReadError) : RingFault := invalidId e.message

/-- A required part of a request is missing. -/
def missing (field : String) : RingFault := invalidRequest ("missing " ++ field)

/-- A node of a request has no endpoint. -/
def noAddress (id : RingId) : RingFault :=
  invalidRequest ("node " ++ id.short ++ " has no address")

/-- A newcomer has the point of the member that it asks. -/
def idTaken (id : RingId) (holder : Node) : RingFault :=
  invalidRequest ("identifier " ++ id.short ++ " is already taken by " ++ holder.short)

/-- A routing slot does not exist. -/
def fingerOutOfRange (index : Nat) : RingFault :=
  invalidRequest
    ("finger index " ++ toString index ++ " out of range 0.." ++ toString RingId.bits)

end RingFault

end RingOverlay
