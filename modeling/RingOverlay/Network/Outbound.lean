import RingOverlay.Network.Basic

/-!
# `RingOverlay.Network.Outbound` — what a member asks of others

Each step reads the member's table, sends at most one request after another, and writes what it learned
into the table. The table may change while a request is under way; nothing here relies on it not
changing, and the next round corrects what is out of date.

## Contents
- **Joining.** `join`, `forwardJoin`.
- **Keeping the ring.** `stabilize`, `notify`, `check`.
- **Finding owners.** `lookup`.
- **Leaving.** `leave`.
-/

namespace RingOverlay.Network

/-- Takes a predecessor that another member told of, if it is another node and none is known. -/
def learnPredecessor (net : Network) (k : Nat) (told : Option Node) : Network :=
  match told with
  | none => net
  | some n =>
    if n ≠ net.self k ∧ (net.predecessor? k).isNone then net.setPredecessor k n else net

/-- Joins the ring of the member at endpoint `through` and returns the new successor. -/
def join (t : Transport) (k : Nat) (through : String) : Attempt Node := fun net =>
  let self := net.self k
  match t .join through { requestingNode := some self.contact } (net.note (.joining self through)) with
  | (.error fault, net) => (.error (.joinFailed (through ++ ": " ++ fault.message)), net)
  | (.ok reply, net) =>
    match Contact.required reply.successor "successor" with
    | .error fault => (.error fault, net)
    | .ok successor =>
      let net := if successor = self then net else net.setFinger k Table.successorSlot successor
      match Contact.optional reply.predecessor with
      | .error fault => (.error fault, net)
      | .ok predecessor =>
        (.ok successor, (net.learnPredecessor k predecessor).note (.joined self successor))

/-- Passes a join that does not belong here on to `next`, unless it has been passed on too often. -/
def forwardJoin (t : Transport) (k : Nat) (next : Node) (request : JoinRequest) :
    Attempt JoinResponse := fun net =>
  let limit := (net.member k).hopLimit
  if limit ≤ request.hops then
    (.error (.hopLimitExceeded ((request.requestingNode.map (·.nodeId)).getD "") limit), net)
  else
    let request := { request with hops := request.hops + 1 }
    match t .join next.endpoint request (net.note (.joinForwarded next request.hops)) with
    | (.error fault, net) => (.error (.transport fault), net)
    | (.ok reply, net) => (.ok reply, net)

/-- Tells the successor that this member may be its predecessor. -/
def notify (t : Transport) (k : Nat) : Attempt Unit := fun net =>
  match net.peerSuccessor? k with
  | none => (.ok (), net)
  | some successor =>
    match t .notify successor.endpoint { requestingNode := some (net.self k).contact } net with
    | (.error fault, net) => (.error (.transport fault), net)
    | (.ok _, net) => (.ok (), net)

/-- Takes the successor's predecessor as the new successor where it lies between. -/
def moveCloser (net : Network) (k : Nat) (successor : Node) (candidate : Option Node) : Network :=
  match candidate with
  | none => net
  | some n =>
    if n.id.between (net.self k).id successor.id then
      (net.note (.successorCloser successor n)).setFinger k Table.successorSlot n
    else net

/-- Removes a successor that does not answer. -/
def dropSuccessor (net : Network) (k : Nat) (successor : Node) (fault : TransportFault) : Network :=
  ((net.note (.successorFailed successor fault)).remove k successor.id).publish k
    (.successorFailed successor)

/-- Asks the successor for its predecessor, takes that node as the new successor where it lies
    between, and notifies the successor. A successor that does not answer is removed, which is no
    fault. -/
def stabilize (t : Transport) (k : Nat) : Attempt Unit := fun net =>
  match net.peerSuccessor? k with
  | none => (.ok (), net)
  | some successor =>
    match t .stabilize successor.endpoint { requestingNode := some (net.self k).contact } net with
    | (.error fault, net) => (.ok (), net.dropSuccessor k successor fault)
    | (.ok reply, net) =>
      match Contact.optional reply.predecessor with
      | .error fault => (.error fault, net)
      | .ok candidate => notify t k (net.moveCloser k successor candidate)

/-- Clears a predecessor that does not answer, unless another has taken its place meanwhile. -/
def dropPredecessor (net : Network) (k : Nat) (predecessor : Node) (fault : TransportFault) :
    Network :=
  let net := net.note (.predecessorFailed predecessor fault)
  let net := if net.predecessor? k = some predecessor then net.clearPredecessor k else net
  net.publish k (.predecessorFailed predecessor)

/-- Asks the predecessor for a sign of life. A member without a successor does not. -/
def check (t : Transport) (k : Nat) : Attempt Unit := fun net =>
  match net.peerSuccessor? k, net.predecessor? k with
  | some _, some predecessor =>
    match t .check predecessor.endpoint { requestingNode := some (net.self k).contact } net with
    | (.error fault, net) => (.ok (), net.dropPredecessor k predecessor fault)
    | (.ok _, net) => (.ok (), net)
  | _, _ => (.ok (), net)

/-- Finds the owner of `id` for a request that has been forwarded `hops` times: the successor if it is
    the owner, else whatever the next member on the way answers. -/
def lookup (t : Transport) (k : Nat) (id : RingId) (hops : UInt32) : Attempt Node := fun net =>
  let m := net.member k
  match m.table.route m.self id with
  | .owner n => (.ok n, net)
  | .forward next =>
    if m.hopLimit ≤ hops then (.error (.hopLimitExceeded id.decimal m.hopLimit), net)
    else
      match t .successor next.endpoint ⟨some m.self.contact, id.decimal, hops + 1⟩
          (net.note (.lookupForwarded id next (hops + 1))) with
      | (.error fault, net) =>
        (.error (.lookupFailed (id.short ++ " via " ++ next.short ++ ": " ++ fault.message)), net)
      | (.ok reply, net) => (Contact.required reply.successor "successor", net)

/-- Tells the successor that this member leaves, and who takes its arc over. -/
def leave (t : Transport) (k : Nat) : Attempt Unit := fun net =>
  let self := net.self k
  match net.peerSuccessor? k with
  | none => (.ok (), net)
  | some successor =>
    let heir := (net.predecessor? k).getD self
    match t .leave successor.endpoint ⟨some self.contact, some heir.contact⟩ net with
    | (.error fault, net) => (.error (.transport fault), net)
    | (.ok _, net) => (.ok (), net.note (.handedOver self successor))

end RingOverlay.Network
