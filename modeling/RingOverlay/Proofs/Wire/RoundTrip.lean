import RingOverlay.Proofs.Wire.Field

/-!
# `Wire.RoundTrip` — messages survive the wire

A message is written field by field and read field by field into the value of no bytes. `Takes depth bytes a b`
says that the fields in `bytes` take the value `a` to the value `b`; so a message is read back if each of its
fields takes in what was written for it. A field that is left out takes in its default, which stands there
already. Lengths on the wire are numbers of 64 bits, so that is the only bound on what can be read.

## Contents
- **Fields.** `Takes`, `Takes.append`, and one lemma for each kind of field.
- **Types.** `Lawful`: the length that is told is right and the bytes take the empty value to the value.
- **Messages.** `lawful_contact`, `lawful_request`, `lawful_response`; `roundTrip`.
-/

namespace RingOverlay.Wire

variable {α β : Type} [Message α] {depth tag : Nat} {bytes bytes' : List UInt8} {a b c : α}

/-! ## Fields -/

/-- The fields in `bytes` take `a` to `b`. -/
def Takes (depth : Nat) (bytes : List UInt8) (a b : α) : Prop :=
  ∃ fs, Spells depth bytes fs ∧ fs.foldlM (Message.put depth) a = some b

theorem Takes.nil (a : α) : Takes depth [] a a := ⟨[], spells_nil, rfl⟩

theorem Takes.append (h : Takes depth bytes a b) (h' : Takes depth bytes' b c) :
    Takes depth (bytes ++ bytes') a c := by
  obtain ⟨fs, hs, hf⟩ := h
  obtain ⟨fs', hs', hf'⟩ := h'
  refine ⟨fs ++ fs', hs.append hs', ?_⟩
  rw [List.foldlM_append, hf]
  exact hf'

theorem Takes.mergeBytes (h : Takes depth bytes a b) : mergeBytes depth a bytes = some b := by
  obtain ⟨fs, hs, hf⟩ := h
  rw [Wire.mergeBytes, hs.readFields]
  exact hf

/-- One field whose value is read as `x`. -/
theorem takes_field {set : β → α} {read : Value → Option β} {value : Value} {x : β}
    (hput : ∀ v, Message.put depth a (tag, v) = (read v).bind fun x => some (set x))
    (hspells : Spells depth bytes [(tag, value)]) (hread : read value = some x) :
    Takes depth bytes a (set x) := by
  refine ⟨_, hspells, ?_⟩
  rw [List.foldlM_cons, hput, hread]
  rfl

section Kinds

variable (htag : 0 < tag ∧ tag < 2 ^ 29)
include htag

theorem takes_text (set : String → α) {s : String}
    (hput : ∀ v, Message.put depth a (tag, v) = (putText v).bind fun s => some (set s))
    (hdefault : set "" = a) (hs : textLength tag s < 2 ^ 64) :
    Takes depth (writeText tag s) a (set s) := by
  unfold writeText
  unfold textLength at hs
  split
  · next he =>
    rw [String.isEmpty_iff.1 he, hdefault]
    exact .nil a
  · next he =>
    rw [if_neg he] at hs
    refine takes_field hput (spells_delimited htag.1 htag.2 ?_) (putText_textBytes s)
    rw [length_textBytes]
    omega

theorem takes_count (set : UInt32 → α) {n : UInt32}
    (hput : ∀ v, Message.put depth a (tag, v) = (putCount v).bind fun n => some (set n))
    (hdefault : set 0 = a) : Takes depth (writeCount tag n) a (set n) := by
  unfold writeCount
  split
  · next h0 =>
    rw [h0, hdefault]
    exact .nil a
  · have hn : n.toNat < 2 ^ 64 := Nat.lt_trans n.toNat_lt (by decide)
    exact takes_field hput (spells_varint htag.1 htag.2 hn) (putCount_toNat n)

theorem takes_stamp (set : Int64 → α) {n : Int64}
    (hput : ∀ v, Message.put depth a (tag, v) = (putStamp v).bind fun n => some (set n))
    (hdefault : set 0 = a) : Takes depth (writeStamp tag n) a (set n) := by
  unfold writeStamp
  split
  · next h0 =>
    rw [h0, hdefault]
    exact .nil a
  · exact takes_field hput (spells_varint htag.1 htag.2 n.toUInt64.toNat_lt) (putStamp_toNat n)

end Kinds

/-! ## Contacts -/

theorem length_encode_contact (c : Contact) :
    (Message.encode c).length = Message.encodedLength c := by
  show (writeText 1 c.nodeId ++ writeText 2 c.address).length = _
  rw [List.length_append, length_writeText, length_writeText]
  rfl

theorem takes_encode_contact (depth : Nat) {c : Contact} (h : Message.encodedLength c < 2 ^ 64) :
    Takes depth (Message.encode c) {} c := by
  have hparts : textLength 1 c.nodeId + textLength 2 c.address < 2 ^ 64 := h
  have hid : Takes depth (writeText 1 c.nodeId) ({} : Contact) { nodeId := c.nodeId } :=
    takes_text (by decide) (fun s => ({ nodeId := s } : Contact)) (fun _ => rfl) rfl (by omega)
  have haddress : Takes depth (writeText 2 c.address) { nodeId := c.nodeId } c :=
    takes_text (by decide) (fun s => { c with address := s }) (fun _ => rfl) rfl (by omega)
  exact hid.append haddress

theorem length_writeContact (tag : Nat) (c : Option Contact) :
    (writeContact tag c).length = contactLength tag c := by
  rw [writeContact, length_writeNested, contactLength, Option.map_map]
  congr 2
  funext c
  exact length_encode_contact c

/-- A contact lies one level deeper than the message that it is a field of. -/
theorem takes_contact (htag : 0 < tag ∧ tag < 2 ^ 29) (hdepth : 0 < depth) (set : Option Contact → α)
    {c : Option Contact}
    (hput : ∀ v, Message.put depth a (tag, v) = (putContact depth none v).bind fun c => some (set c))
    (hdefault : set none = a) (h : contactLength tag c < 2 ^ 64) :
    Takes depth (writeContact tag c) a (set c) := by
  cases c with
  | none =>
    rw [hdefault]
    exact .nil a
  | some c =>
    have hc : keyLength tag + varintLength (Message.encodedLength c) + Message.encodedLength c
        < 2 ^ 64 := h
    have hlen := length_encode_contact c
    refine takes_field hput (spells_delimited htag.1 htag.2 (by omega)) ?_
    rw [putContact, if_neg (by omega)]
    have hmerge := (takes_encode_contact (depth - 1) (c := c) (by omega)).mergeBytes
    simp only [Option.getD_none, hmerge]
    rfl

/-! ## Messages -/

/-- The length that is told of a value is that of its bytes, and these take the empty value to it. -/
structure Lawful (α : Type) [Message α] : Prop where
  length : ∀ a : α, (Message.encode a).length = Message.encodedLength a
  takes : ∀ a : α, Message.encodedLength a < 2 ^ 64 →
    Takes nestingLimit (Message.encode a) Message.empty a

theorem lawful_contact : Lawful Contact := ⟨length_encode_contact, fun _ => takes_encode_contact _⟩

/-- A message that holds one contact and nothing else. -/
theorem lawful_of_contact (get : α → Option Contact) (set : Option Contact → α)
    (hset : ∀ a, set (get a) = a) (hempty : set none = Message.empty)
    (hencode : ∀ a, Message.encode a = writeContact 1 (get a))
    (hlength : ∀ a : α, Message.encodedLength a = contactLength 1 (get a))
    (hput : ∀ d v, Message.put d Message.empty (1, v)
      = (putContact d none v).bind fun c => some (set c)) : Lawful α where
  length a := by rw [hencode, hlength, length_writeContact]
  takes a h := by
    rw [hlength] at h
    have hcontact : Takes nestingLimit (writeContact 1 (get a)) Message.empty (set (get a)) :=
      takes_contact (by decide) (by decide) set (hput nestingLimit) hempty h
    rw [hset, ← hencode] at hcontact
    exact hcontact

/-- A message that holds two contacts. -/
theorem lawful_of_contacts (first second : α → Option Contact)
    (make : Option Contact → Option Contact → α) (hmake : ∀ a, make (first a) (second a) = a)
    (hempty : make none none = Message.empty)
    (hencode : ∀ a, Message.encode a = writeContact 1 (first a) ++ writeContact 2 (second a))
    (hlength : ∀ a : α,
      Message.encodedLength a = contactLength 1 (first a) + contactLength 2 (second a))
    (hfirst : ∀ d v, Message.put d (make none none) (1, v)
      = (putContact d none v).bind fun c => some (make c none))
    (hsecond : ∀ d c v, Message.put d (make c none) (2, v)
      = (putContact d none v).bind fun c' => some (make c c')) : Lawful α where
  length a := by
    rw [hencode, hlength, List.length_append, length_writeContact, length_writeContact]
  takes a h := by
    rw [hlength] at h
    have hone : Takes nestingLimit (writeContact 1 (first a)) (make none none) (make (first a) none) :=
      takes_contact (by decide) (by decide) (make · none) (hfirst nestingLimit) rfl (by omega)
    have htwo : Takes nestingLimit (writeContact 2 (second a)) (make (first a) none)
        (make (first a) (second a)) :=
      takes_contact (by decide) (by decide) (make (first a)) (hsecond nestingLimit (first a)) rfl
        (by omega)
    have hboth := hone.append htwo
    rw [hempty, hmake, ← hencode] at hboth
    exact hboth

/-- A message that holds nothing. -/
theorem lawful_of_empty (hempty : ∀ a : α, a = Message.empty)
    (hencode : ∀ a : α, Message.encode a = []) (hlength : ∀ a : α, Message.encodedLength a = 0) :
    Lawful α where
  length a := by
    rw [hencode, hlength]
    rfl
  takes a _ := by
    rw [hencode, hempty a]
    exact .nil _

theorem lawful_joinRequest : Lawful JoinRequest where
  length r := by
    show (writeContact 1 r.requestingNode ++ writeCount 2 r.hops).length = _
    rw [List.length_append, length_writeContact, length_writeCount]
    rfl
  takes r h := by
    have hparts : contactLength 1 r.requestingNode + countLength 2 r.hops < 2 ^ 64 := h
    have hsender : Takes nestingLimit (writeContact 1 r.requestingNode) ({} : JoinRequest)
        { requestingNode := r.requestingNode } :=
      takes_contact (by decide) (by decide) (fun c => ({ requestingNode := c } : JoinRequest))
        (fun _ => rfl) rfl (by omega)
    exact hsender.append (takes_count (by decide) (fun n => { r with hops := n }) (fun _ => rfl) rfl)

theorem lawful_successorRequest : Lawful SuccessorRequest where
  length r := by
    show (writeContact 1 r.requestingNode ++ writeText 2 r.id ++ writeCount 3 r.hops).length = _
    rw [List.length_append, List.length_append, length_writeContact, length_writeText,
      length_writeCount]
    rfl
  takes r h := by
    have hparts : contactLength 1 r.requestingNode + textLength 2 r.id + countLength 3 r.hops
        < 2 ^ 64 := h
    have hsender : Takes nestingLimit (writeContact 1 r.requestingNode) ({} : SuccessorRequest)
        { requestingNode := r.requestingNode } :=
      takes_contact (by decide) (by decide) (fun c => ({ requestingNode := c } : SuccessorRequest))
        (fun _ => rfl) rfl (by omega)
    have hid : Takes nestingLimit (writeText 2 r.id)
        ({ requestingNode := r.requestingNode } : SuccessorRequest) { r with hops := 0 } :=
      takes_text (by decide) (fun s => { r with id := s, hops := 0 }) (fun _ => rfl) rfl (by omega)
    exact (hsender.append hid).append
      (takes_count (by decide) (fun n => { r with hops := n }) (fun _ => rfl) rfl)

theorem lawful_checkResponse : Lawful CheckResponse where
  length r := by
    show (writeContact 1 r.node ++ writeStamp 2 r.timestamp).length = _
    rw [List.length_append, length_writeContact, length_writeStamp]
    rfl
  takes r h := by
    have hparts : contactLength 1 r.node + stampLength 2 r.timestamp < 2 ^ 64 := h
    have hnode : Takes nestingLimit (writeContact 1 r.node) ({} : CheckResponse) { node := r.node } :=
      takes_contact (by decide) (by decide) (fun c => ({ node := c } : CheckResponse))
        (fun _ => rfl) rfl (by omega)
    exact hnode.append
      (takes_stamp (by decide) (fun n => { r with timestamp := n }) (fun _ => rfl) rfl)

theorem lawful_request (m : Method) : Lawful m.Request := by
  cases m with
  | join => exact lawful_joinRequest
  | successor => exact lawful_successorRequest
  | stabilize =>
    exact lawful_of_contact StabilizeRequest.requestingNode StabilizeRequest.mk (fun _ => rfl) rfl
      (fun _ => rfl) (fun _ => rfl) fun _ _ => rfl
  | notify =>
    exact lawful_of_contact NotifyRequest.requestingNode NotifyRequest.mk (fun _ => rfl) rfl
      (fun _ => rfl) (fun _ => rfl) fun _ _ => rfl
  | check =>
    exact lawful_of_contact CheckRequest.requestingNode CheckRequest.mk (fun _ => rfl) rfl
      (fun _ => rfl) (fun _ => rfl) fun _ _ => rfl
  | leave =>
    exact lawful_of_contacts LeaveRequest.requestingNode LeaveRequest.predecessor LeaveRequest.mk
      (fun _ => rfl) rfl (fun _ => rfl) (fun _ => rfl) (fun _ _ => rfl) fun _ _ _ => rfl

theorem lawful_response (m : Method) : Lawful m.Response := by
  cases m with
  | join =>
    exact lawful_of_contacts JoinResponse.successor JoinResponse.predecessor JoinResponse.mk
      (fun _ => rfl) rfl (fun _ => rfl) (fun _ => rfl) (fun _ _ => rfl) fun _ _ _ => rfl
  | successor =>
    exact lawful_of_contact SuccessorResponse.successor SuccessorResponse.mk (fun _ => rfl) rfl
      (fun _ => rfl) (fun _ => rfl) fun _ _ => rfl
  | stabilize =>
    exact lawful_of_contact StabilizeResponse.predecessor StabilizeResponse.mk (fun _ => rfl) rfl
      (fun _ => rfl) (fun _ => rfl) fun _ _ => rfl
  | notify => exact lawful_of_empty (fun _ => rfl) (fun _ => rfl) fun _ => rfl
  | check => exact lawful_checkResponse
  | leave => exact lawful_of_empty (fun _ => rfl) (fun _ => rfl) fun _ => rfl

/-! ## Round trips -/

/-- The bytes of a value are as many as was told, and reading them gives the value back. A length is a number
    of 64 bits, so nothing of 2^64 bytes or more can be told of. -/
structure RoundTrip (a : α) : Prop where
  length : Message.encodedLength a = (Message.encode a).length
  decode : (Message.encode a).length < 2 ^ 64 → decode? α (Message.encode a) = some a

theorem Lawful.roundTrip (h : Lawful α) (a : α) : RoundTrip a where
  length := (h.length a).symm
  decode hlt := (h.takes a (h.length a ▸ hlt)).mergeBytes

/-- Contacts, requests and responses of all methods come back as they were. -/
theorem roundTrip_message :
    (∀ c : Contact, RoundTrip c) ∧
      ∀ m : Method, (∀ r : m.Request, RoundTrip r) ∧ ∀ r : m.Response, RoundTrip r :=
  ⟨lawful_contact.roundTrip, fun m => ⟨(lawful_request m).roundTrip, (lawful_response m).roundTrip⟩⟩

/-- An empty contact is told apart from none, and a time before the epoch takes ten bytes. -/
theorem roundTrip_message_early :
    (Message.encode (⟨some {}, -1⟩ : CheckResponse)).length = 13 ∧
      decode? CheckResponse (Message.encode (⟨some {}, -1⟩ : CheckResponse)) = some ⟨some {}, -1⟩ :=
  ⟨by decide +kernel, ((roundTrip_message.2 .check).2 ⟨some {}, -1⟩).decode (by decide +kernel)⟩

end RingOverlay.Wire
