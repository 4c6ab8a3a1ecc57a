import RingOverlay.Network.Outbound

/-!
# `RingOverlay.Network.Inbound` — what a member answers

A member answers from its own table where it can and forwards where it cannot.

## Contents
- **The six answers.** `answerJoin`, `answerSuccessor`, `answerStabilize`, `answerNotify`,
  `answerCheck`, `answerLeave`, and `answer` for any method.
- **Table upkeep.** `adoptPredecessor`, `fixFinger`.
-/

namespace RingOverlay.Network

/-- Makes a node the predecessor; a change is announced. -/
def adoptPredecessor (net : Network) (k : Nat) (new : Node) : Network :=
  let old := net.predecessor? k
  let net := net.setPredecessor k new
  if old = some new then net else net.publish k (.predecessorChanged old new)

/-! ## Joining -/

/-- Where a newcomer goes. -/
inductive JoinPlace where
  /-- The member is alone: the newcomer becomes both its neighbours. -/
  | lone
  /-- The newcomer becomes the successor, in front of `successor`. -/
  | ahead (successor : Node)
  /-- The newcomer becomes the predecessor, behind `predecessor`. -/
  | behind (predecessor : Node)
  /-- It belongs between members further on. -/
  | elsewhere (next : Node)
  deriving DecidableEq, Repr

/-- The place of a newcomer at a member that knows `predecessor?` and the other member `successor?`.
    The member stands in for a neighbour that it does not know. -/
def JoinPlace.choose (self : Node) (predecessor? successor? : Option Node) (newcomer : RingId) :
    JoinPlace :=
  let successor := successor?.getD self
  let predecessor := predecessor?.getD self
  if predecessor?.isNone ∧ successor?.isNone then .lone
  else if predecessor?.isSome ∧ successor?.isSome ∧
      ¬newcomer.between predecessor.id successor.id then
    .elsewhere successor
  else if newcomer.between self.id successor.id then .ahead successor
  else if newcomer.between predecessor.id self.id then .behind predecessor
  else .elsewhere successor

/-- Takes a newcomer in next to this member, or passes the request on. -/
def answerJoin (t : Transport) (k : Nat) (request : JoinRequest) : Attempt JoinResponse := fun net =>
  match Contact.required request.requestingNode "requesting_node" with
  | .error fault => (.error fault, net)
  | .ok source =>
    let self := net.self k
    if source.id = self.id then (.error (.idTaken source.id self), net)
    else
      match JoinPlace.choose self (net.predecessor? k) (net.peerSuccessor? k) source.id with
      | .lone =>
        let net := (net.note (.joinedLone source self)).setFinger k Table.successorSlot source
        (.ok ⟨some self.contact, some self.contact⟩, net.adoptPredecessor k source)
      | .ahead successor =>
        (.ok ⟨some successor.contact, some self.contact⟩,
          (net.note (.becameSuccessor source self)).setFinger k Table.successorSlot source)
      | .behind predecessor =>
        (.ok ⟨some self.contact, some predecessor.contact⟩,
          (net.note (.becamePredecessor source self)).adoptPredecessor k source)
      | .elsewhere next => forwardJoin t k next request (net.note (.joinElsewhere source self))

/-! ## Finding owners -/

/-- Finds the owner of a point. -/
def answerSuccessor (t : Transport) (k : Nat) (request : SuccessorRequest) :
    Attempt SuccessorResponse := fun net =>
  match RingId.ofDecimal request.id with
  | .error e => (.error (.ofReadError e), net)
  | .ok id =>
    let self := net.self k
    if id = self.id then (.ok ⟨some self.contact⟩, net)
    else
      match lookup t k id request.hops net with
      | (.error fault, net) => (.error fault, net)
      | (.ok owner, net) => (.ok ⟨some owner.contact⟩, net)

/-! ## Keeping the ring -/

/-- Tells the predecessor. -/
def answerStabilize (k : Nat) : Attempt StabilizeResponse := fun net =>
  (.ok ⟨(net.predecessor? k).map Node.contact⟩, net)

/-- Whether `source` lies closer in front of `self` than the predecessor known so far. -/
def closerPredecessor (self : Node) (predecessor? : Option Node) (source : Node) : Bool :=
  match predecessor? with
  | none => true
  | some predecessor => source.id.between predecessor.id self.id

/-- Takes `source` as successor where none is known. -/
def adoptNotifier (net : Network) (k : Nat) (source : Node) : Network :=
  if (net.peerSuccessor? k).isSome then net
  else (net.note (.notifierAdopted (net.self k) source)).setFinger k Table.successorSlot source

/-- Takes the sender as predecessor where it is closer than the one known, and as successor where none
    is known, so that a member that lost its ring is attached again. -/
def answerNotify (k : Nat) (request : NotifyRequest) : Attempt NotifyResponse := fun net =>
  match Contact.required request.requestingNode "requesting_node" with
  | .error fault => (.error fault, net)
  | .ok source =>
    let self := net.self k
    if source.id = self.id then (.ok {}, net)
    else
      let closer := closerPredecessor self (net.predecessor? k) source
      let net := if closer then net.adoptPredecessor k source else net
      (.ok {}, net.adoptNotifier k source)

/-- Gives a sign of life. -/
def answerCheck (k : Nat) : Attempt CheckResponse := fun net =>
  (.ok ⟨some (net.self k).contact, net.clock⟩, net)

/-- Announces that another member leaves. The table is kept; the next round mends it. -/
def answerLeave (k : Nat) (request : LeaveRequest) : Attempt LeaveResponse := fun net =>
  match Contact.required request.requestingNode "requesting_node" with
  | .error fault => (.error fault, net)
  | .ok node =>
    match Contact.required request.predecessor "predecessor" with
    | .error fault => (.error fault, net)
    | .ok predecessor =>
      (.ok {}, (net.note (.leaving node predecessor)).publish k (.left node predecessor))

/-- Answers a request. -/
def answer (t : Transport) (k : Nat) : (m : Method) → m.Request → Attempt m.Response
  | .join, request => answerJoin t k request
  | .successor, request => answerSuccessor t k request
  | .stabilize, _ => answerStabilize k
  | .notify, request => answerNotify k request
  | .check, _ => answerCheck k
  | .leave, request => answerLeave k request

/-! ## Table upkeep -/

/-- The distance ahead of a member that slot `i` covers: 1 for slot 0 and for every slot while no
    successor is known, else 2^(i-1). -/
def fingerOffset (hasSuccessor : Bool) (i : Fin 256) : RingId :=
  if i.val = 0 ∨ hasSuccessor = false then .one
  else .pow2 ⟨i.val - 1, Nat.lt_of_le_of_lt (Nat.sub_le _ _) i.isLt⟩

/-- Refreshes a slot with the owner of the point that it covers. A slot that the member itself would
    own becomes unknown. -/
def fixFinger (t : Transport) (k : Nat) (index : Nat) : Attempt Unit := fun net =>
  if h : index < 256 then
    let i : Fin 256 := ⟨index, h⟩
    let self := net.self k
    let offset := fingerOffset (net.peerSuccessor? k).isSome i
    match lookup t k (self.id + offset) 0 net with
    | (.error fault, net) => (.error fault, net)
    | (.ok owner, net) =>
      (.ok (), if owner = self then net.clearFinger k i else net.setFinger k i owner)
  else (.error (.fingerOutOfRange index), net)

end RingOverlay.Network
