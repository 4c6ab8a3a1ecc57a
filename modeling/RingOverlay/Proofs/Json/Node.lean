import RingOverlay.Proofs.Json.Record

/-!
# `Json.Node` — points and nodes come back from their texts

What is written for a point or a node is JSON of the shape that is read, with every character of the endpoint in
its place: escapes are undone one by one, and the numeral of a point is read as that point.

## Contents
- **Points.** `isPoint_json`.
- **Nodes.** `IsNode`, `isNode_json`, `reads_node`.
- **Whole texts.** `Reads.readAll`, `readAll_json`.
-/

namespace RingOverlay.Json

open Text

variable {α : Type} {v : List Char}

/-! ## Points -/

theorem isPoint_json (x : RingId) : IsPoint x.json x := by
  refine ⟨x.decimal, isString_quote x.decimal, ?_⟩
  rw [RingId.toList_decimal]
  exact ⟨isNumeral_digits x.val, numeralValue_digits x.val⟩

/-! ## Nodes -/

/-- The text of a node: an object with its point and its endpoint. -/
def IsNode (v : List Char) (n : Node) : Prop :=
  ∃ id endpoint : Member, IsObject [id, endpoint] v ∧
    (Spells id.key "id".toList ∧ IsPoint id.value n.id) ∧
    (Spells endpoint.key "endpoint".toList ∧ IsString endpoint.value n.endpoint)

theorem isValue_quote (text : String) : IsValue (quote text) := by
  obtain ⟨body, hquote, hbody⟩ := isString_quote text
  rw [hquote]
  exact .string hbody.isBody

/-- A member as it is written, its name and its value being quoted. -/
def quotedMember (key value : String) : Member := ⟨key.toList.flatMap escaped, quote value⟩

theorem isMember_quote (key value : String) :
    IsMember IsValue (quotedMember key value) (quote key ++ ':' :: quote value) := by
  have hkey := (spells_flatMap_escaped key.toList).isBody
  exact .intro hkey (isValue_quote value) blank_nil blank_nil blank_nil

/-- A node is written without blanks, its point in front of its endpoint. -/
theorem isNode_json (n : Node) : IsNode n.json n := by
  have hid := isMember_quote "id" n.id.decimal
  have hendpoint := isMember_quote "endpoint" n.endpoint
  have hobject := IsObject.intro (.first hid (.next blank_nil hendpoint .nil)) blank_nil
  have hjson : n.json = '\x7b' :: ((quote "id" ++ ':' :: quote n.id.decimal) ++
      ([] ++ ',' :: ((quote "endpoint" ++ ':' :: quote n.endpoint) ++ [])) ++ ([] ++ ['\x7d'])) := by
    simp only [Node.json, RingId.json, List.append_assoc, List.cons_append, List.nil_append]
  rw [← hjson] at hobject
  exact ⟨quotedMember "id" n.id.decimal, quotedMember "endpoint" n.endpoint, hobject,
    ⟨spells_flatMap_escaped _, isPoint_json n.id⟩, spells_flatMap_escaped _, isString_quote n.endpoint⟩

theorem reads_node {n : Node} (h : IsNode v n) : Reads node v n := by
  obtain ⟨id, endpoint, hobject, ⟨hidKey, hid⟩, hendpointKey, hendpoint⟩ := h
  have hgivesId : Gives nodeShape id ⟨"id", fun d => { d with id := some n.id }⟩ :=
    ⟨hidKey, _, rfl, fun d => (reads_ringId hid).map fun x => { d with id := some x }⟩
  have hgivesEndpoint :
      Gives nodeShape endpoint ⟨"endpoint", fun d => { d with endpoint := some n.endpoint }⟩ :=
    ⟨hendpointKey, _, rfl, fun d =>
      (reads_string "a string" hendpoint).map fun s => { d with endpoint := some s }⟩
  have hnodup : ["id", "endpoint"].Nodup := by decide
  exact reads_record hobject (.cons hgivesId (.cons hgivesEndpoint .nil)) hnodup rfl

/-! ## Whole texts -/

theorem Reads.readAll {r : Reader α} {a : α} (h : Reads r v a) {gap gap' : List Char} (hgap : Blank gap)
    (hgap' : Blank gap') : readAll r (String.ofList (gap ++ (v ++ gap'))) = .ok a := by
  have hrest : Delimited gap' := fun c hc => .inl (hgap' c (List.mem_of_head? hc))
  have hend : gap'.dropWhile isBlank = [] := List.dropWhile_eq_nil_iff.2 hgap'
  rw [Json.readAll, String.toList_ofList, h gap gap' hgap hrest]
  simp only [bind, Except.bind, hend, List.isEmpty_nil, if_true]
  rfl

/-- What is written for a node or a point is JSON, and reading gives the node or the point back. -/
theorem readAll_json :
    (∀ n : Node, IsNode n.json n ∧ readAll node (String.ofList n.json) = .ok n) ∧
    ∀ x : RingId, IsPoint x.json x ∧ readAll ringId (String.ofList x.json) = .ok x := by
  constructor
  · intro n
    have hread := (reads_node (isNode_json n)).readAll blank_nil blank_nil
    rw [List.nil_append, List.append_nil] at hread
    exact ⟨isNode_json n, hread⟩
  · intro x
    have hread := (reads_ringId (isPoint_json x)).readAll blank_nil blank_nil
    rw [List.nil_append, List.append_nil] at hread
    exact ⟨isPoint_json x, hread⟩

end RingOverlay.Json
