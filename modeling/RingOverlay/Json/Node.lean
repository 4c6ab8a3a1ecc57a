import RingOverlay.Fault
import RingOverlay.Json.Record

/-!
# `RingOverlay.Json.Node` — points and nodes as JSON

A point is a string that holds its decimal numeral, a node a record of its point and its endpoint.

## Contents
- `RingId.json`, `Json.ringId`.
- `Node.json`, `Json.nodeShape`, `Json.node`.
-/

namespace RingOverlay

/-- The JSON text of a point. -/
def RingId.json (x : RingId) : List Char := Json.quote x.decimal

/-- The JSON text of a node. -/
def Node.json (n : Node) : List Char :=
  '\x7b' :: Json.quote "id" ++ ':' :: n.id.json ++ ',' :: Json.quote "endpoint" ++
    ':' :: Json.quote n.endpoint ++ ['\x7d']

namespace Json

/-- Reads a point. -/
def ringId : Reader RingId := do
  match RingId.ofDecimal (← string "a string") with
  | .ok x => return x
  | .error e => throw (.unfit (RingFault.ofReadError e).message)

/-- A node that has been read in part. -/
structure NodeDraft where
  id : Option RingId := none
  endpoint : Option String := none
  deriving Inhabited, Repr

/-- Completes a node; both fields have to be there. -/
def NodeDraft.complete (d : NodeDraft) : Except ReadFault Node :=
  match d.id, d.endpoint with
  | none, _ => .error (missingField "id")
  | _, none => .error (missingField "endpoint")
  | some id, some endpoint => .ok ⟨id, endpoint⟩

/-- The shape of a node. -/
def nodeShape : Shape NodeDraft Node where
  title := "struct Node"
  fields := [
    ⟨"id", fun d => return { d with id := some (← ringId) }⟩,
    ⟨"endpoint", fun d => return { d with endpoint := some (← string "a string") }⟩]
  lenient := true
  start := {}
  complete := NodeDraft.complete
  completeShort _ count :=
    .error (.unfit s!"invalid length {count}, expected struct Node with 2 elements")

/-- Reads a node. -/
def node : Reader Node := record nodeShape

end Json

end RingOverlay
