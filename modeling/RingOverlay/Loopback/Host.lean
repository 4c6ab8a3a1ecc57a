import RingOverlay.Loopback.Address
import RingOverlay.Loopback.Interface
import RingOverlay.Network.Setup

/-!
# `RingOverlay.Loopback.Host` — peers on the ports of one host

Peers bind ports of this host and ask each other through them. A port answers as long as something
listens there.

## Contents
- **State.** `Listener`, which connections it `accepts` and which others it `blocks`, `Host`.
- **Connections.** `Destination`, `reach`, `carry`, `transport`.
- **Ports.** `freePort?`, `place?`, `listen`, `close`, `serve`.
- **Life of a peer.** `bind`, `start`, `shutdown`, `drop`.
-/

namespace RingOverlay.Loopback

/-! ## State -/

/-- What answers at a port. -/
inductive Server where
  /-- The member at a position of the network. -/
  | member (k : Nat)
  /-- Something that takes connections but never answers. -/
  | mute
  deriving DecidableEq, Inhabited, Repr

/-- A port that is taken at an interface, or at all of them. -/
structure Listener where
  interface : Nat
  port : Nat
  server : Server
  deriving DecidableEq, Inhabited, Repr

/-- Whether connections to an interface and a port come to a listener. -/
def Listener.accepts (l : Listener) (interface port : Nat) : Bool :=
  l.port = port && (l.interface = interface || l.interface = allInterfaces)

/-- Whether a listener leaves no room for another one at an interface and a port. -/
def Listener.blocks (l : Listener) (interface port : Nat) : Bool :=
  l.accepts interface port || (l.port = port && interface = allInterfaces)

/-- A host: its members, the ports that are taken, and the rules of its connections. -/
structure Host where
  network : Network := {}
  listeners : List Listener := []
  /-- The next port to give to a peer that asks for none. -/
  nextPort : Nat := 40001
  /-- Whether the host is without a network: connections fail, also to ports that are taken, and no
      interface counts as another host's. -/
  sealed : Bool := false
  deriving Inhabited

namespace Host

/-! ## Connections -/

/-- Where an endpoint leads. -/
inductive Destination where
  /-- It is no address. -/
  | invalid
  /-- Nothing listens there. -/
  | nobody
  | server (s : Server)
  deriving DecidableEq, Inhabited, Repr

/-- What listens where an address leads. All interfaces together are reached through one of them. -/
def listener? (h : Host) (address : Address) : Option Listener :=
  (interface? address.host).bind fun interface =>
    let interface := if interface = allInterfaces then loopback else interface
    h.listeners.find? (·.accepts interface address.port)

/-- Where an endpoint leads on a host. -/
def reach (h : Host) (endpoint : String) : Destination :=
  match Address.ofEndpoint? endpoint with
  | none => .invalid
  | some address =>
    match if h.sealed then none else h.listener? address with
    | none => .nobody
    | some l => .server l.server

/-- Carries requests between the ports of a host; they nest at most so deep. -/
def carry (h : Host) : Nat → Transport
  | 0 => Network.silent
  | depth + 1 => fun m endpoint request net =>
    match h.reach endpoint with
    | .invalid => (.error (.connectionFailed endpoint), net)
    | .nobody => (.error (.peerUnreachable endpoint), net)
    | .server .mute => (.error (.remote "Timeout expired"), net)
    | .server (.member k) =>
      let (answer, net) := Network.serve (carry h depth) k m request net
      (answer.mapError fun status => .ofStatus status.received, net)

/-- The way of requests on a host. -/
def transport (h : Host) : Transport := h.carry (h.network.callDepth + 1)

/-- Changes the members of a host. -/
def mapNetwork (h : Host) (f : Network → Network) : Host := { h with network := f h.network }

/-! ## Ports -/

/-- Whether a port is taken at an interface. -/
def isTaken (h : Host) (interface port : Nat) : Bool := h.listeners.any (·.blocks interface port)

/-- The port for a listener that wants a certain one, or none in particular. Nothing if it is taken. -/
def freePort? (h : Host) (interface : Nat) (wanted : Option UInt16) : Option Nat :=
  match wanted.filter (· ≠ 0) with
  | some port => if h.isTaken interface port.toNat then none else some port.toNat
  | none => (List.range' h.nextPort (h.listeners.length + 1)).find? (!h.isTaken interface ·)

/-- The interface and the port for a listener at a host name, if the host has them free. -/
def place? (h : Host) (name : String) (wanted : Option UInt16) : Option (Nat × Nat) := do
  let interface ← (interface? name).filter fun i => h.sealed || isOwn i
  let port ← h.freePort? interface wanted
  return (interface, port)

/-- Lets a listener take its port. -/
def listen (h : Host) (l : Listener) : Host :=
  { h with
    listeners := l :: h.listeners
    nextPort := if l.port = h.nextPort then h.nextPort + 1 else h.nextPort }

/-- Frees the port of a listener. -/
def close (h : Host) (l : Listener) : Host := { h with listeners := h.listeners.filter (· ≠ l) }

/-- Lets a server listen at a free port of the loopback interface. -/
def serve (h : Host) (server : Server) : Host × Listener :=
  let l := ⟨loopback, (h.freePort? loopback none).getD h.nextPort, server⟩
  (h.listen l, l)

/-- The endpoint of a port of the loopback address. -/
def endpoint (port : Nat) : String := "127.0.0.1:" ++ toString port

/-! ## Life of a peer -/

/-- A peer that has been bound: its position among the members and what listens for it. -/
structure Bound where
  index : Nat
  listener : Listener
  settings : Settings
  /-- Whether it still serves. -/
  serving : Bool := true
  deriving Inhabited

/-- Binds the address of a peer, checks its settings and lets it serve. `id` is its point where the
    settings give none. -/
def bind (h : Host) (settings : Settings) (id : RingId) : Except PeerFault (Bound × Host) :=
  match h.place? settings.host settings.port with
  | none => .error (.transport (.connectionFailed ("Failed to bind " ++ settings.host)))
  | some (interface, port) => do
    settings.admit
    let member := settings.member id (settings.endpoint (.ofNat port))
    let index := h.network.members.length
    let listener := ⟨interface, port, .member index⟩
    return ({ index, listener, settings }, (h.mapNetwork (·.add member)).listen listener)

/-- Starts a peer: it makes a ring of its own or joins one. -/
def start (h : Host) (b : Bound) : Host :=
  h.mapNetwork (Network.enterRing h.transport b.index b.settings)

/-- Ends a peer. Its port is freed; other ports that serve it go on. -/
def drop (h : Host) (b : Bound) : Host := if b.serving then h.close b.listener else h

/-- Shuts a peer down: it leaves the ring and frees its port. Once is enough. -/
def shutdown (h : Host) (b : Bound) : Bound × Host :=
  if b.serving then
    let h := h.mapNetwork fun net =>
      Network.depart h.transport b.index (net.note (.shuttingDown (net.self b.index)))
    ({ b with serving := false }, h.close b.listener)
  else (b, h)

end Host

end RingOverlay.Loopback
