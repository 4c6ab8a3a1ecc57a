import RingOverlay.Wire.Field
import RingOverlay.Fault

/-!
# `RingOverlay.Wire.Message` — requests and responses of the protocol

Members ask one another six things. Each request names its sender; points travel as decimal numerals.

## Contents
- **Contacts.** `Contact`, the wire form of a node; `Node.contact`, `Contact.node`, and the reading of
  a required or optional contact.
- **Messages.** One request and one response type for each `Method`.
- **Encoding.** `Message` ties a type to its bytes: `encode`, `encodedLength`, `decode?`.
-/

namespace RingOverlay

/-! ## Contacts -/

/-- A node as it travels: any two texts, checked by the receiver. -/
structure Contact where
  nodeId : String := ""
  address : String := ""
  deriving DecidableEq, Inhabited, Repr

/-- The wire form of a node. -/
def Node.contact (n : Node) : Contact := ⟨n.id.decimal, n.endpoint⟩

namespace Contact

/-- The node of a contact: a decimal point and an endpoint that is not empty. -/
def node (c : Contact) : Except RingFault Node :=
  match RingId.ofDecimal c.nodeId with
  | .error e => .error (.ofReadError e)
  | .ok id => if c.address.isEmpty then .error (.noAddress id) else .ok ⟨id, c.address⟩

/-- The node of a contact that has to be there. -/
def required (c : Option Contact) (field : String) : Except RingFault Node :=
  match c with
  | none => .error (.missing field)
  | some c => c.node

/-- The node of a contact that may be absent. -/
def optional (c : Option Contact) : Except RingFault (Option Node) :=
  match c with
  | none => .ok none
  | some c => c.node.map some

end Contact

/-! ## Messages -/

structure JoinRequest where
  requestingNode : Option Contact := none
  /-- How often the join has been forwarded. -/
  hops : UInt32 := 0
  deriving DecidableEq, Inhabited, Repr

structure JoinResponse where
  successor : Option Contact := none
  predecessor : Option Contact := none
  deriving DecidableEq, Inhabited, Repr

structure SuccessorRequest where
  requestingNode : Option Contact := none
  id : String := ""
  /-- How often the lookup has been forwarded. -/
  hops : UInt32 := 0
  deriving DecidableEq, Inhabited, Repr

structure SuccessorResponse where
  successor : Option Contact := none
  deriving DecidableEq, Inhabited, Repr

structure StabilizeRequest where
  requestingNode : Option Contact := none
  deriving DecidableEq, Inhabited, Repr

structure StabilizeResponse where
  predecessor : Option Contact := none
  deriving DecidableEq, Inhabited, Repr

structure NotifyRequest where
  requestingNode : Option Contact := none
  deriving DecidableEq, Inhabited, Repr

structure NotifyResponse where
  deriving DecidableEq, Inhabited, Repr

structure CheckRequest where
  requestingNode : Option Contact := none
  deriving DecidableEq, Inhabited, Repr

structure CheckResponse where
  node : Option Contact := none
  /-- When the responder answered, in milliseconds of its clock. -/
  timestamp : Int64 := 0
  deriving DecidableEq, Inhabited, Repr

structure LeaveRequest where
  requestingNode : Option Contact := none
  predecessor : Option Contact := none
  deriving DecidableEq, Inhabited, Repr

structure LeaveResponse where
  deriving DecidableEq, Inhabited, Repr

/-- What members ask one another. -/
inductive Method where
  | join | successor | stabilize | notify | check | leave
  deriving DecidableEq, Inhabited, Repr

namespace Method

/-- All methods. -/
def all : List Method := [join, successor, stabilize, notify, check, leave]

/-- The name of a method in reports. -/
def name : Method → String
  | join => "join"
  | successor => "successor"
  | stabilize => "stabilize"
  | notify => "notify"
  | check => "check"
  | leave => "leave"

/-- What is asked. -/
@[reducible] def Request : Method → Type
  | join => JoinRequest
  | successor => SuccessorRequest
  | stabilize => StabilizeRequest
  | notify => NotifyRequest
  | check => CheckRequest
  | leave => LeaveRequest

/-- What is answered. -/
@[reducible] def Response : Method → Type
  | join => JoinResponse
  | successor => SuccessorResponse
  | stabilize => StabilizeResponse
  | notify => NotifyResponse
  | check => CheckResponse
  | leave => LeaveResponse

end Method

/-! ## Encoding -/

namespace Wire

/-- How deep messages and groups may nest. -/
def nestingLimit : Nat := 100

/-- A type with a wire form. -/
class Message (α : Type) where
  /-- The value of no bytes. -/
  empty : α
  /-- The bytes of a value. -/
  encode : α → List UInt8
  /-- The number of bytes of a value, found without writing them. -/
  encodedLength : α → Nat
  /-- Takes one field in; fields of unknown tags change nothing, a known tag with a value of another
      kind is refused. `depth` bounds the nesting inside the field. -/
  put : Nat → α → Nat × Value → Option α

/-- Takes the fields of `bytes` into `start`, in order. -/
def mergeBytes {α : Type} [Message α] (depth : Nat) (start : α) (bytes : List UInt8) : Option α := do
  (← readFields depth bytes).foldlM (Message.put depth) start

/-- Reads a message that takes up all of `bytes`. -/
def decode? (α : Type) [Message α] (bytes : List UInt8) : Option α :=
  mergeBytes nestingLimit Message.empty bytes

/-- A text value; the last one given counts. -/
def putText : Value → Option String
  | .delimited bytes => textOfBytes? bytes
  | _ => none

/-- A count value: the low 32 bits of the number. -/
def putCount : Value → Option UInt32
  | .varint n => some (.ofNat n)
  | _ => none

/-- A time stamp value, read in two's complement. -/
def putStamp : Value → Option Int64
  | .varint n => some (UInt64.ofNat n).toInt64
  | _ => none

instance : Message Contact where
  empty := {}
  encode c := writeText 1 c.nodeId ++ writeText 2 c.address
  encodedLength c := textLength 1 c.nodeId + textLength 2 c.address
  put
    | _, c, (1, v) => return { c with nodeId := ← putText v }
    | _, c, (2, v) => return { c with address := ← putText v }
    | _, c, _ => some c

/-- A contact field of a message. -/
def writeContact (tag : Nat) (c : Option Contact) : List UInt8 :=
  writeNested tag (c.map Message.encode)

/-- The number of bytes of a contact field. -/
def contactLength (tag : Nat) (c : Option Contact) : Nat :=
  nestedLength tag (c.map Message.encodedLength)

/-- A contact value; given again, it is taken into the one before. -/
def putContact (depth : Nat) (old : Option Contact) : Value → Option (Option Contact)
  | .delimited bytes => do
    if depth = 0 then none
    return some (← mergeBytes (depth - 1) (old.getD {}) bytes)
  | _ => none

instance : Message JoinRequest where
  empty := {}
  encode m := writeContact 1 m.requestingNode ++ writeCount 2 m.hops
  encodedLength m := contactLength 1 m.requestingNode + countLength 2 m.hops
  put
    | d, m, (1, v) => return { m with requestingNode := ← putContact d m.requestingNode v }
    | _, m, (2, v) => return { m with hops := ← putCount v }
    | _, m, _ => some m

instance : Message JoinResponse where
  empty := {}
  encode m := writeContact 1 m.successor ++ writeContact 2 m.predecessor
  encodedLength m := contactLength 1 m.successor + contactLength 2 m.predecessor
  put
    | d, m, (1, v) => return { m with successor := ← putContact d m.successor v }
    | d, m, (2, v) => return { m with predecessor := ← putContact d m.predecessor v }
    | _, m, _ => some m

instance : Message SuccessorRequest where
  empty := {}
  encode m := writeContact 1 m.requestingNode ++ writeText 2 m.id ++ writeCount 3 m.hops
  encodedLength m := contactLength 1 m.requestingNode + textLength 2 m.id + countLength 3 m.hops
  put
    | d, m, (1, v) => return { m with requestingNode := ← putContact d m.requestingNode v }
    | _, m, (2, v) => return { m with id := ← putText v }
    | _, m, (3, v) => return { m with hops := ← putCount v }
    | _, m, _ => some m

instance : Message SuccessorResponse where
  empty := {}
  encode m := writeContact 1 m.successor
  encodedLength m := contactLength 1 m.successor
  put
    | d, m, (1, v) => return { m with successor := ← putContact d m.successor v }
    | _, m, _ => some m

instance : Message StabilizeRequest where
  empty := {}
  encode m := writeContact 1 m.requestingNode
  encodedLength m := contactLength 1 m.requestingNode
  put
    | d, m, (1, v) => return { m with requestingNode := ← putContact d m.requestingNode v }
    | _, m, _ => some m

instance : Message StabilizeResponse where
  empty := {}
  encode m := writeContact 1 m.predecessor
  encodedLength m := contactLength 1 m.predecessor
  put
    | d, m, (1, v) => return { m with predecessor := ← putContact d m.predecessor v }
    | _, m, _ => some m

instance : Message NotifyRequest where
  empty := {}
  encode m := writeContact 1 m.requestingNode
  encodedLength m := contactLength 1 m.requestingNode
  put
    | d, m, (1, v) => return { m with requestingNode := ← putContact d m.requestingNode v }
    | _, m, _ => some m

instance : Message NotifyResponse where
  empty := {}
  encode _ := []
  encodedLength _ := 0
  put _ m _ := some m

instance : Message CheckRequest where
  empty := {}
  encode m := writeContact 1 m.requestingNode
  encodedLength m := contactLength 1 m.requestingNode
  put
    | d, m, (1, v) => return { m with requestingNode := ← putContact d m.requestingNode v }
    | _, m, _ => some m

instance : Message CheckResponse where
  empty := {}
  encode m := writeContact 1 m.node ++ writeStamp 2 m.timestamp
  encodedLength m := contactLength 1 m.node + stampLength 2 m.timestamp
  put
    | d, m, (1, v) => return { m with node := ← putContact d m.node v }
    | _, m, (2, v) => return { m with timestamp := ← putStamp v }
    | _, m, _ => some m

instance : Message LeaveRequest where
  empty := {}
  encode m := writeContact 1 m.requestingNode ++ writeContact 2 m.predecessor
  encodedLength m := contactLength 1 m.requestingNode + contactLength 2 m.predecessor
  put
    | d, m, (1, v) => return { m with requestingNode := ← putContact d m.requestingNode v }
    | d, m, (2, v) => return { m with predecessor := ← putContact d m.predecessor v }
    | _, m, _ => some m

instance : Message LeaveResponse where
  empty := {}
  encode _ := []
  encodedLength _ := 0
  put _ m _ := some m

instance : (m : Method) → Message m.Request
  | .join => inferInstanceAs (Message JoinRequest)
  | .successor => inferInstanceAs (Message SuccessorRequest)
  | .stabilize => inferInstanceAs (Message StabilizeRequest)
  | .notify => inferInstanceAs (Message NotifyRequest)
  | .check => inferInstanceAs (Message CheckRequest)
  | .leave => inferInstanceAs (Message LeaveRequest)

instance : (m : Method) → Message m.Response
  | .join => inferInstanceAs (Message JoinResponse)
  | .successor => inferInstanceAs (Message SuccessorResponse)
  | .stabilize => inferInstanceAs (Message StabilizeResponse)
  | .notify => inferInstanceAs (Message NotifyResponse)
  | .check => inferInstanceAs (Message CheckResponse)
  | .leave => inferInstanceAs (Message LeaveResponse)

end Wire

end RingOverlay
