import RingOverlay.Json.Value

/-!
# `RingOverlay.Json.Record` — records as JSON objects and lists

A record is an object with named fields in any order, or a list of the fields in their own order. Values
are put into a draft of the record, which is completed when all have been read.

## Contents
- `Field`, `Shape`.
- **Objects.** `memberAhead`, `readMembers`.
- **Lists.** `itemAhead`, `readItems`, `endItems`.
- **Either.** `record`.
-/

namespace RingOverlay.Json

/-- A field of a record with draft type `σ`. -/
structure Field (σ : Type) where
  name : String
  /-- Reads the value and puts it into the draft. -/
  read : σ → Reader σ

/-- The shape of a record with draft type `σ`. -/
structure Shape (σ α : Type) where
  /-- What a fault calls the record. -/
  title : String
  /-- The fields in the order of the record. -/
  fields : List (Field σ)
  /-- Whether a member with an unknown name is passed over. -/
  lenient : Bool
  /-- The draft before any value has been read. -/
  start : σ
  /-- Completes the draft of an object. -/
  complete : σ → Except ReadFault α
  /-- Completes the draft of a list that holds only so many fields. -/
  completeShort : σ → Nat → Except ReadFault α

/-- A name is none of a record with several fields. -/
def unknownField (name : String) (names : List String) : ReadFault :=
  .unfit ("unknown field " ++ ticked name ++ ", expected one of "
    ++ ", ".intercalate (names.map ticked))

/-- A field is given twice. -/
def duplicateField (name : String) : ReadFault := .unfit ("duplicate field " ++ ticked name)

/-- A field is not given. -/
def missingField (name : String) : ReadFault := .unfit ("missing field " ++ ticked name)

/-! ## Objects -/

/-- Takes off what stands in front of the next member of an object. Tells whether there is one. -/
def memberAhead (first : Bool) : Reader Bool := do
  match ← peekToken with
  | none => throw .unfinished
  | some '\x7d' => return false
  | some c =>
    if first then
      if c = '"' then return true else throw .malformed
    else if c ≠ ',' then throw .malformed
    else
      skip
      match ← peekToken with
      | none => throw .unfinished
      | some d => if d = '"' then return true else throw .malformed

/-- Reads the members of an object, at most `fuel`. Fields already given are in `given`. -/
def readMembers {σ α : Type} (shape : Shape σ α) : Nat → List String → σ → Reader σ
  | 0, _, _ => throw .malformed
  | fuel + 1, given, draft => do
    if !(← memberAhead given.isEmpty) then return draft
    let name ← stringBody
    match shape.fields.find? (·.name = name) with
    | some field =>
      if name ∈ given then throw (duplicateField name)
      token ':'
      readMembers shape fuel (name :: given) (← field.read draft)
    | none =>
      if !shape.lenient then throw (unknownField name (shape.fields.map (·.name)))
      token ':'
      passValue
      readMembers shape fuel (name :: given) draft

/-! ## Lists -/

/-- Takes off what stands in front of the next item of a list. Tells whether there is one. -/
def itemAhead (first : Bool) : Reader Bool := do
  match ← peekToken with
  | none => throw .unfinished
  | some ']' => return false
  | some c =>
    if first then return true
    else if c ≠ ',' then throw .malformed
    else
      skip
      match ← peekToken with
      | none => throw .unfinished
      | some ']' => throw .malformed
      | some _ => return true

/-- Reads items of a list into fields, and returns how many there were. -/
def readItems {σ : Type} (first : Bool) : List (Field σ) → σ → Reader (σ × Nat)
  | [], draft => return (draft, 0)
  | field :: rest, draft => do
    if !(← itemAhead first) then return (draft, 0)
    let (draft, count) ← readItems false rest (← field.read draft)
    return (draft, count + 1)

/-- Takes the end of a list off, where no more items may follow. -/
def endItems : Reader Unit := token ']'

/-! ## Either -/

/-- Reads a record. -/
def record {σ α : Type} (shape : Shape σ α) : Reader α := do
  match ← peekToken with
  | some '\x7b' =>
    skip
    let draft ← readMembers shape ((← get).length + 1) [] shape.start
    let a ← shape.complete draft
    token '\x7d'
    return a
  | some '[' =>
    skip
    let (draft, count) ← readItems true shape.fields shape.start
    let a ← if count = shape.fields.length then shape.complete draft
      else shape.completeShort draft count
    endItems
    return a
  | _ => mismatch shape.title

end RingOverlay.Json
