import RingOverlay.Network.Delivery
import RingOverlay.Proofs.Network.Frame
import RingOverlay.Proofs.Ring.Clockwise
import RingOverlay.Proofs.RingId.Decimal

/-!
# `Network.Online` — members that reach each other

`Online net ms` says that the members at the positions `ms` are distinct and answer at their endpoints,
and that no scripted answer stands between them. A request to one of them is then its own answer, written
into the record of calls. Requests of answering members nest; `outgoing relay d` lets them nest at most
`d` deep, and the depth that the network computes for itself is above every hop limit.

## Contents
- **Presence.** `Online`, kept by every step.
- **Successors to ask.** `peerSuccessor?_of_none`, `peerSuccessor?_of_some`.
- **Requests.** `ask`, `outgoing_of_find?`, `outgoing_succ`, `outgoing_eq_ok`, `transport_eq_ok`;
  `outgoing_eq_unreachable`, `transport_eq_unreachable`.
- **Depth.** `hopLimit_lt_callDepth`, `not_limit_le`.
-/

namespace RingOverlay.Network

/-! ## Presence -/

/-- The members at the positions `ms` have points of their own and answer at endpoints of their own. -/
structure Online (net : Network) (ms : List Nat) : Prop where
  script : net.script = []
  distinct : Ring.Distinct net.point ms
  answers : ∀ k ∈ ms, net.find? (net.self k).endpoint = some k
  address : ∀ k ∈ ms, (net.self k).endpoint ≠ ""

variable {net net' : Network} {ms : List Nat}

theorem Online.of_kept (h : Online net ms) (hk : Kept net net') : Online net' ms where
  script := hk.script.trans h.script
  distinct := hk.point ▸ h.distinct
  answers k hm := by rw [hk.self, hk.find?, h.answers k hm]
  address k hm := by rw [hk.self]; exact h.address k hm

/-- Some of the members that are online. -/
theorem Online.sublist (h : Online net ms) {ms' : List Nat} (hs : ms'.Sublist ms) :
    Online net ms' where
  script := h.script
  distinct := h.distinct.sublist hs
  answers k hk := h.answers k (hs.subset hk)
  address k hk := h.address k (hs.subset hk)

/-- Entries of other keys are found as before in a list from which those of one key were removed. -/
theorem lookup_filter_ne {e e' : String} (h : e ≠ e') (l : List (String × Nat)) :
    (l.filter (·.1 ≠ e')).lookup e = l.lookup e := by
  induction l with
  | nil => rfl
  | cons p l ih =>
    by_cases hp : p.1 = e'
    · have he : (e == p.1) = false := beq_false_of_ne (hp ▸ h)
      rw [List.filter_cons_of_neg (by simp [hp]), List.lookup_cons, he, ih]
    · rw [List.filter_cons_of_pos (by simp [hp]), List.lookup_cons, List.lookup_cons, ih]

theorem lookup_filter_self (e : String) (l : List (String × Nat)) :
    (l.filter (·.1 ≠ e)).lookup e = none := by
  rw [List.lookup_eq_none_iff]
  intro p hp
  have hne : p.1 ≠ e := of_decide_eq_true (List.mem_filter.1 hp).2
  exact bne_iff_ne.2 hne.symm

theorem lt_length_of_find? {endpoint : String} {k : Nat} (h : net.find? endpoint = some k) :
    k < net.members.length := by
  rw [find?, Option.filter_eq_some_iff] at h
  obtain ⟨m, hm, -⟩ := (Option.any_eq_true ..).1 h.2
  exact (List.getElem?_eq_some_iff.1 hm).1

theorem Online.lt_length (h : Online net ms) {k : Nat} (hk : k ∈ ms) : k < net.members.length :=
  lt_length_of_find? (h.answers k hk)

/-- The node of a member tells its position. -/
theorem Online.self_injective (h : Online net ms) {k l : Nat} (hk : k ∈ ms) (hl : l ∈ ms)
    (he : net.self k = net.self l) : k = l :=
  h.distinct.place_inj k hk l hl (congrArg Node.id he)

theorem Online.self_ne (h : Online net ms) {k l : Nat} (hk : k ∈ ms) (hl : l ∈ ms) (hne : k ≠ l) :
    net.self k ≠ net.self l :=
  fun he => hne (h.self_injective hk hl he)

/-! ## Successors to ask -/

theorem peerSuccessor?_of_none {k : Nat} (hs : (net.table k).successor? = none) :
    net.peerSuccessor? k = none := by
  rw [peerSuccessor?, Table.peerSuccessor?, hs, Option.filter_none]

/-- A successor that is another node is one to ask. -/
theorem peerSuccessor?_of_some {k : Nat} {n : Node} (hs : (net.table k).successor? = some n)
    (hne : n ≠ net.self k) : net.peerSuccessor? k = some n := by
  rw [peerSuccessor?, Table.peerSuccessor?, hs, Option.filter_some, if_pos (decide_eq_true hne)]

/-! ## Requests -/

/-- The record of a request. -/
def ask (net : Network) (m : Method) (endpoint : String) (request : m.Request) : Network :=
  { net with calls := ⟨m, endpoint, request⟩ :: net.calls }

theorem quiet_ask (net : Network) (m : Method) (endpoint : String) (request : m.Request) :
    Quiet net (net.ask m endpoint request) := ⟨rfl, rfl, rfl⟩

/-- How the answer of a member arrives. -/
def arrived {α : Type} : Except RingFault α × Network → Except TransportFault α × Network
  | (.error fault, net) => (.error fault.remote, net)
  | (.ok response, net) => (.ok response, net)

theorem arrived_snd {α : Type} (p : Except RingFault α × Network) : (arrived p).2 = p.2 := by
  rcases p with ⟨_ | _, _⟩ <;> rfl

/-- The member registered at the endpoint answers. -/
theorem outgoing_of_find? {endpoint : String} {l : Nat} (hs : net.script = [])
    (hf : net.find? endpoint = some l) (d : Nat) (m : Method) (request : m.Request) :
    outgoing relay (d + 1) m endpoint request net
      = arrived (answer (outgoing relay d) l m request (net.ask m endpoint request)) := by
  have hs' : (net.ask m endpoint request).script = [] := hs
  have hf' : (net.ask m endpoint request).find? endpoint = some l := hf
  show scripted (dispatch (outgoing relay d)) m endpoint request (net.ask m endpoint request) = _
  rw [scripted, hs']
  simp only [takeAnswer?, dispatch, hf']
  rcases answer (outgoing relay d) l m request (net.ask m endpoint request) with
    ⟨fault | response, net⟩
  · rfl
  · rfl

/-- Nobody is registered at the endpoint, or who is does not exist any more. -/
theorem outgoing_eq_unreachable {endpoint : String} (hs : net.script = [])
    (hf : net.find? endpoint = none) (d : Nat) (m : Method) (request : m.Request) :
    outgoing relay (d + 1) m endpoint request net
      = (.error (.peerUnreachable endpoint), net.ask m endpoint request) := by
  have hs' : (net.ask m endpoint request).script = [] := hs
  have hf' : (net.ask m endpoint request).find? endpoint = none := hf
  show scripted (dispatch (outgoing relay d)) m endpoint request (net.ask m endpoint request) = _
  rw [scripted, hs']
  simp only [takeAnswer?, dispatch, hf']

/-- A request to a member that is online gets the answer of that member. -/
theorem outgoing_succ (h : Online net ms) {l : Nat} (hl : l ∈ ms) (d : Nat) (m : Method)
    (request : m.Request) :
    outgoing relay (d + 1) m (net.self l).endpoint request net
      = arrived (answer (outgoing relay d) l m request
          (net.ask m (net.self l).endpoint request)) :=
  outgoing_of_find? h.script (h.answers l hl) d m request

/-- A request that the member at `l` answers. -/
theorem outgoing_eq_ok (h : Online net ms) {l : Nat} (hl : l ∈ ms) {d : Nat} {m : Method}
    {request : m.Request} {response : m.Response}
    (ha : answer (outgoing relay d) l m request
      (net.ask m (net.self l).endpoint request) = (.ok response, net')) :
    outgoing relay (d + 1) m (net.self l).endpoint request net = (.ok response, net') := by
  rw [outgoing_succ h hl, ha]
  rfl

/-- A request of a member that the member at `l` answers. -/
theorem transport_eq_ok (h : Online net ms) {l : Nat} (hl : l ∈ ms) {m : Method}
    {request : m.Request} {response : m.Response}
    (ha : answer (outgoing relay (net.callDepth - 1)) l m request
      (net.ask m (net.self l).endpoint request) = (.ok response, net')) :
    transport m (net.self l).endpoint request net = (.ok response, net') :=
  outgoing_eq_ok h hl ha

/-- A request of a member to an endpoint at which nobody answers. -/
theorem transport_eq_unreachable {endpoint : String} (hs : net.script = [])
    (hf : net.find? endpoint = none) (m : Method) (request : m.Request) :
    transport m endpoint request net
      = (.error (.peerUnreachable endpoint), net.ask m endpoint request) :=
  outgoing_eq_unreachable hs hf _ m request

/-! ## Depth -/

theorem le_foldl_max {α : Type} (f : α → Nat) (l : List α) (d : Nat) :
    d ≤ l.foldl (fun d a => max d (f a)) d ∧
      ∀ a ∈ l, f a ≤ l.foldl (fun d a => max d (f a)) d := by
  induction l generalizing d with
  | nil => exact ⟨Nat.le_refl d, fun a ha => absurd ha List.not_mem_nil⟩
  | cons x l ih =>
    obtain ⟨hd, hl⟩ := ih (max d (f x))
    refine ⟨Nat.le_trans (Nat.le_max_left ..) hd, List.forall_mem_cons.2 ⟨?_, hl⟩⟩
    exact Nat.le_trans (Nat.le_max_right ..) hd

/-- Requests may nest deeper than any member forwards them. -/
theorem hopLimit_lt_callDepth {k : Nat} (hk : k < net.members.length) :
    (net.member k).hopLimit.toNat < net.callDepth := by
  have hm : net.member k = net.members[k] := by
    rw [member, List.getElem?_eq_getElem hk, Option.getD_some]
  rw [hm]
  exact Nat.lt_succ_of_le
    ((le_foldl_max (fun m : Member => m.hopLimit.toNat) net.members 0).2 _ (List.getElem_mem hk))

/-- A request below the limit may be forwarded, and counts one more then. -/
theorem not_limit_le {limit hops : UInt32} (h : hops.toNat < limit.toNat) :
    ¬limit ≤ hops ∧ (hops + 1).toNat = hops.toNat + 1 := by
  have hl := limit.toNat_lt
  have hone : (1 : UInt32).toNat = 1 := rfl
  rw [UInt32.le_iff_toNat_le, UInt32.toNat_add, hone]
  exact ⟨Nat.not_le.2 h, Nat.mod_eq_of_lt (by omega)⟩

end RingOverlay.Network
