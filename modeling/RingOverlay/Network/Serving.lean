import RingOverlay.Network.Delivery
import RingOverlay.Wire.Frame
import RingOverlay.Wire.Header

/-!
# `RingOverlay.Network.Serving` — members behind a remote procedure interface

A remote call names a method by a path and brings a body of frames. The answer is a body too, or a
status.

## Contents
- **Paths.** `Method.path`, `Method.ofPath?`.
- **Calls.** `serve` for one method, `serveBody` for a path and a body, `remoteCall` for a typed
  request.
-/

namespace RingOverlay

namespace Method

/-- The path of a method. -/
def path : Method → String
  | join => "/chord.ChordNode/Join"
  | successor => "/chord.ChordNode/Successor"
  | stabilize => "/chord.ChordNode/Stabilize"
  | notify => "/chord.ChordNode/Notify"
  | check => "/chord.ChordNode/Check"
  | leave => "/chord.ChordNode/Leave"

/-- The method of a path. -/
def ofPath? (path : String) : Option Method := all.find? (·.path = path)

end Method

namespace Network

/-- Lets a member answer a request that came from outside; a fault is reported and becomes a status. -/
def serve (t : Transport) (k : Nat) (m : Method) (request : m.Request) :
    Act (Except Status m.Response) := fun net =>
  let net := if m = .join then net.note .joinReceived else net
  match answer t k m request net with
  | (.ok response, net) => (.ok response, net)
  | (.error fault, net) => (.error fault.status, net.note (.requestFailed m.name fault))

/-- Lets a member answer the body of a call to a path. A status is returned as the caller gets it. -/
def serveBody (t : Transport) (k : Nat) (path : String) (body : List UInt8) :
    Act (Except Status (List UInt8)) := fun net =>
  match Method.ofPath? path with
  | none => (.error ⟨.unimplemented, ""⟩, net)
  | some m =>
    match Wire.readSingle m.Request body with
    | .error status => (.error status.received, net)
    | .ok request =>
      match serve t k m request net with
      | (.error status, net) => (.error status.received, net)
      | (.ok response, net) => (.ok (Wire.frame (Wire.Message.encode response)), net)

/-- Calls a method of a member from outside: the request is framed, served, and the answer read. -/
def remoteCall (t : Transport) (k : Nat) (m : Method) (request : m.Request) :
    Act (Except Status m.Response) := fun net =>
  let (answer, net) := serveBody t k m.path (Wire.frame (Wire.Message.encode request)) net
  (answer.bind (Wire.readSingle m.Response), net)

end Network

end RingOverlay
