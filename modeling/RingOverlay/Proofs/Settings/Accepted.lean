import RingOverlay.Network.Setup
import RingOverlay.Proofs.RingId.Decimal

/-!
# `Settings.Accepted` — settings that pass the checks, and the nodes made of them

The checks look at the numbers and at the host, and at nothing else. So they let an advertised endpoint pass
that is the empty text, and the node of such a peer cannot be read back from its wire form: whatever
request has to name its sender is refused when it comes from there. All other settings make nodes that can
be read back.

## Contents
- **Checks.** `Admissible`, `validate_eq_ok_iff`, `validate_eq_error`.
- **Endpoints.** `endpoint_eq_empty_iff`.
- **Nodes.** `Contact.node_contact_of_empty`, `localNode`, `localNode_survives`, and the peer of
  `localNode_refused_mute`, which is accepted and cannot join.
-/

namespace RingOverlay

namespace Settings

/-! ## Checks -/

/-- What accepted settings satisfy. -/
structure Admissible (s : Settings) : Prop where
  stabilizeInterval : s.stabilizeInterval ≠ 0
  checkInterval : s.checkInterval ≠ 0
  fingersInterval : s.fingersInterval ≠ 0
  rpcTimeout : s.rpcTimeout ≠ 0
  fingersPerTick : 1 ≤ s.fingersPerTick.toNat ∧ s.fingersPerTick.toNat ≤ 255
  maxLookupHops : s.maxLookupHops ≠ 0
  workers : s.workers ≠ 0
  host : s.host ≠ ""

theorem admissible_iff_checks {s : Settings} : s.Admissible ↔ ∀ c ∈ s.checks, c.1 = true := by
  have hfingers : (0 < s.fingersPerTick ∧ s.fingersPerTick < 256) ↔
      1 ≤ s.fingersPerTick.toNat ∧ s.fingersPerTick.toNat ≤ 255 := by
    rw [UInt64.lt_iff_toNat_lt, UInt64.lt_iff_toNat_lt]
    show 0 < s.fingersPerTick.toNat ∧ s.fingersPerTick.toNat < 256 ↔ _
    omega
  have hhost : (!s.host.isEmpty) = true ↔ s.host ≠ "" := by
    rw [Bool.not_eq_true', Text.isEmpty_eq_false_iff]
  simp only [checks, List.forall_mem_cons, List.not_mem_nil, decide_eq_true_eq, hfingers, hhost]
  constructor
  · intro h
    exact ⟨h.stabilizeInterval, h.checkInterval, h.fingersInterval, h.rpcTimeout, h.fingersPerTick,
      h.maxLookupHops, h.workers, h.host, nofun⟩
  · rintro ⟨h1, h2, h3, h4, h5, h6, h7, h8, -⟩
    exact ⟨h1, h2, h3, h4, h5, h6, h7, h8⟩

theorem validate_eq_ok_iff {s : Settings} : s.validate = .ok () ↔ s.Admissible := by
  rw [admissible_iff_checks, validate]
  cases h : s.checks.find? (!·.1) with
  | none =>
    rw [List.find?_eq_none] at h
    refine iff_of_true rfl fun c hc => ?_
    simpa using h c hc
  | some c =>
    refine iff_of_false nofun fun hall => ?_
    have hc := List.find?_some h
    rw [hall c (List.mem_of_find?_eq_some h)] at hc
    cases hc

/-- Settings that are not accepted are refused with the report of a check. -/
theorem validate_eq_error {s : Settings} (h : ¬s.Admissible) :
    ∃ reason, s.validate = .error (.invalid reason) := by
  rw [← validate_eq_ok_iff, validate] at h
  rw [validate]
  cases hc : s.checks.find? (!·.1) with
  | none =>
    rw [hc] at h
    exact absurd rfl h
  | some c => exact ⟨c.2, rfl⟩

/-! ## Endpoints -/

/-- Host and port never make an empty endpoint, not even without a host. -/
theorem endpoint_eq_empty_iff {s : Settings} {port : UInt16} :
    s.endpoint port = "" ↔ s.advertise = some "" := by
  cases h : s.advertise with
  | none =>
    refine iff_of_false (fun hempty => ?_) nofun
    rw [endpoint, h, Option.getD_none] at hempty
    have hlen := congrArg String.length hempty
    simp at hlen
  | some a => rw [endpoint, h, Option.getD_some, Option.some_inj]

end Settings

/-! ## Nodes -/

namespace Contact

/-- A contact without an address is no node, whatever its point. -/
theorem node_eq_error {c : Contact} {id : RingId} (hid : RingId.ofDecimal c.nodeId = .ok id)
    (ha : c.address = "") : c.node = .error (.noAddress id) := by
  have hempty : c.address.isEmpty = true := by
    rw [ha]
    rfl
  unfold node
  rw [hid]
  exact if_pos hempty

/-- A node without an endpoint does not survive its wire form. -/
theorem node_contact_of_empty {n : Node} (h : n.endpoint = "") :
    n.contact.node = .error (.noAddress n.id) :=
  node_eq_error (RingId.ofDecimal_decimal n.id) h

end Contact

/-- A sender that cannot be read is refused, for the reason why it cannot, by whoever has to know it. -/
theorem Network.refused_of_sender {sender : Contact} {fault : RingFault}
    (h : sender.node = .error fault) (t : Transport) (k : Nat) (net : Network) (hops : UInt32)
    (heir : Option Contact) :
    answerJoin t k ⟨some sender, hops⟩ net = (.error fault, net) ∧
    answerNotify k ⟨some sender⟩ net = (.error fault, net) ∧
    answerLeave k ⟨some sender, heir⟩ net = (.error fault, net) := by
  have hrequired : Contact.required (some sender) "requesting_node" = .error fault := h
  refine ⟨?_, ?_, ?_⟩
  · rw [answerJoin, hrequired]
  · rw [answerNotify, hrequired]
  · rw [answerLeave, hrequired]

namespace Settings

/-- The node of the peer that settings make when `port` is bound. `id` is its point where the settings give
    none. -/
def localNode (s : Settings) (id : RingId) (port : UInt16) : Node :=
  (s.member id (s.endpoint port)).self

theorem localNode_endpoint (s : Settings) (id : RingId) (port : UInt16) :
    (s.localNode id port).endpoint = s.endpoint port := rfl

/-- The node of a peer survives its wire form unless its advertised endpoint is the empty text, to which no
    check objects. From a peer with that endpoint, whoever is asked refuses a join, a notification and a
    farewell, and all of them for the same reason. -/
theorem localNode_survives (s : Settings) (id : RingId) (port : UInt16) :
    (∀ a, { s with advertise := a }.validate = s.validate) ∧
    (s.localNode id port).contact.node =
      (if s.advertise = some "" then .error (.noAddress (s.localNode id port).id)
        else .ok (s.localNode id port)) ∧
    (s.advertise = some "" →
      ∀ (t : Transport) (k : Nat) (net : Network) (hops : UInt32) (heir : Option Contact),
        Network.answerJoin t k ⟨some (s.localNode id port).contact, hops⟩ net
          = (.error (.noAddress (s.localNode id port).id), net) ∧
        Network.answerNotify k ⟨some (s.localNode id port).contact⟩ net
          = (.error (.noAddress (s.localNode id port).id), net) ∧
        Network.answerLeave k ⟨some (s.localNode id port).contact, heir⟩ net
          = (.error (.noAddress (s.localNode id port).id), net)) := by
  have hrefused : s.advertise = some "" →
      (s.localNode id port).contact.node = .error (.noAddress (s.localNode id port).id) := by
    intro h
    apply Contact.node_contact_of_empty
    rw [localNode_endpoint, endpoint_eq_empty_iff, h]
  refine ⟨fun a => rfl, ?_, ?_⟩
  · split
    · next h => exact hrefused h
    · next h =>
      apply Contact.node_contact
      rw [localNode_endpoint]
      exact mt endpoint_eq_empty_iff.1 h
  · intro h t k net hops heir
    exact Network.refused_of_sender (hrefused h) t k net hops heir

/-- A peer that is to join through `a` and advertises the empty text. -/
def mute : Settings := { advertise := some "", join := some "a" }

theorem localNode_survives_mute : mute.advertise = some "" ∧
    Network.answerNotify 0 ⟨some (mute.localNode .one 4000).contact⟩ {}
      = (.error (.noAddress (mute.localNode .one 4000).id), {}) :=
  ⟨rfl, ((localNode_survives mute .one 4000).2.2 rfl Network.silent 0 {} 0 none).2.1⟩

/-- Settings can be accepted and make a node that is not. -/
theorem localNode_refused_mute : mute.validate = .ok () ∧
    (mute.localNode .one 4000).contact.node ≠ .ok (mute.localNode .one 4000) := by
  refine ⟨by decide, ?_⟩
  rw [Contact.node_contact_of_empty rfl]
  exact nofun

end Settings

end RingOverlay
