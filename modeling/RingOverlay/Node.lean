import RingOverlay.RingId.Text
import RingOverlay.Text.Quoted

/-!
# `RingOverlay.Node` — peers as others know them

A node is a point of the ring with the endpoint at which its owner answers. Two nodes of one point
with different endpoints are different.

## Contents
- `Node` with its order (point first, then endpoint).
- `short` for reports, `tagged` with all parts.
-/

namespace RingOverlay

/-- A peer on the ring: its point and the endpoint at which it answers. -/
structure Node where
  id : RingId
  endpoint : String
  deriving DecidableEq, Inhabited, Repr

namespace Node

/-- Nodes are ordered by point; nodes of one point by endpoint, compared code point by code point. -/
instance : Ord Node where
  compare a b := (compare a.id b.id).then (compare a.endpoint b.endpoint)

/-- The form in reports. -/
def short (n : Node) : String := n.id.short ++ "@" ++ n.endpoint

instance : ToString Node := ⟨short⟩

/-- The form that names every part. -/
def tagged (n : Node) : String :=
  "Node \x7b id: " ++ n.id.tagged ++ ", endpoint: " ++ Text.quoted n.endpoint ++ " \x7d"

/-- The form of a node that may be unknown. -/
def taggedOption : Option Node → String
  | none => "None"
  | some n => "Some(" ++ n.tagged ++ ")"

/-- Nodes in ascending order. -/
def sorted (nodes : List Node) : List Node :=
  nodes.mergeSort fun a b => (compare a b).isLE

end Node

end RingOverlay
