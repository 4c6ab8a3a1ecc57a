import RingOverlay.Network.Upkeep

/-!
# `RingOverlay.Network.Delivery` — how requests reach members

A request to an endpoint is answered by the member registered there, whose own requests travel the same
way. A request is forwarded only while its hop count is below the limit of the member that forwards,
so requests nest no deeper than one more than the greatest limit.

## Contents
- **Answering.** `dispatch`, the member at an endpoint answers or nobody does.
- **Sending.** `recorded`, `scripted`, and `outgoing` with a bound on the nesting.
- **In use.** `callDepth`, `transport` for members, `direct` for callers from outside.
-/

namespace RingOverlay.Network

/-- Lets the member registered at the endpoint answer; its faults arrive as their status. -/
def dispatch (t : Transport) : Transport := fun m endpoint request net =>
  match net.find? endpoint with
  | none => (.error (.peerUnreachable endpoint), net)
  | some k =>
    match answer t k m request net with
    | (.error fault, net) => (.error fault.remote, net)
    | (.ok response, net) => (.ok response, net)

/-- Nobody answers in time. -/
def silent : Transport := fun _ _ _ net => (.error .timeout, net)

/-- Keeps a record of every request. -/
def recorded (t : Transport) : Transport := fun m endpoint request net =>
  t m endpoint request { net with calls := ⟨m, endpoint, request⟩ :: net.calls }

/-- Takes the oldest answer that fits a request, and counts it as used. -/
def takeAnswer? (m : Method) (endpoint : String) :
    List ScriptedAnswer → Option (Except TransportFault m.Response × List ScriptedAnswer)
  | [] => none
  | s :: rest =>
    if h : s.method = m ∧ s.endpoint = endpoint ∧ 0 < s.uses then
      some (h.1 ▸ s.answer, { s with uses := s.uses - 1 } :: rest)
    else (takeAnswer? m endpoint rest).map fun (a, rest) => (a, s :: rest)

/-- Lets a scripted answer take the network's place. -/
def scripted (t : Transport) : Transport := fun m endpoint request net =>
  match takeAnswer? m endpoint net.script with
  | some (answer, script) => (answer, { net with script })
  | none => t m endpoint request net

/-- The way of members' requests that nest at most `depth` deep; `relay` stands between a member and
    the network. -/
def outgoing (relay : Transport → Transport) : Nat → Transport
  | 0 => silent
  | depth + 1 => relay (dispatch (outgoing relay depth))

/-- A depth that no nesting of requests exceeds: one more than the greatest hop limit. -/
def callDepth (net : Network) : Nat :=
  net.members.foldl (fun d m => max d m.hopLimit.toNat) 0 + 1

/-- What stands between a member and the network: the record and the script. -/
def relay (t : Transport) : Transport := recorded (scripted t)

/-- The way of members' requests. -/
def transport : Transport := fun m endpoint request net =>
  outgoing relay net.callDepth m endpoint request net

/-- The way of a request from outside: past the record and the script. -/
def direct : Transport := fun m endpoint request net =>
  dispatch (outgoing relay net.callDepth) m endpoint request net

end RingOverlay.Network
