import RingOverlay.Proofs.Network.Admission

/-!
# `Network.Seat` — who takes a newcomer in

A request to join that is granted was granted by one member, whatever the tables hold and however often it
was passed on. That member put the newcomer next to itself, on an arc that the newcomer lies on, and named
the ends of the arc; the members that passed the request on hand the answer back as it is. So the newcomer
lies between the two neighbours that it is told, and no other member has changed.

Nothing is asked of the tables. A member may know neither neighbour, or have itself in slot 0, or a node of
its own point; what it does not know it stands in for.

## Contents
- **One table.** `Seating`, the entries that change and the neighbours that are told.
- **One member.** `Seated`; a lemma for each of the three places.
- **Requests.** `Seats`, what a transport owes; `answerJoin_seated`, and `Seats.relay` for one level more.
- **The network.** `granted_between_told`.
-/

namespace RingOverlay

/-! ## One table -/

namespace Table

/-- How the table `t` of the member `self` becomes `t'` when it takes `x` in, and the predecessor and the
    successor that it tells `x` of. -/
inductive Seating (self x : Node) (t t' : Table) : Node → Node → Prop where
  /-- Only slot 0 changes. -/
  | ahead : t.successor? ≠ some x → (∀ i, t'.finger i = if i = 0 then some x else t.finger i) →
      t'.predecessor = t.predecessor → Seating self x t t' self ((t.peerSuccessor? self).getD self)
  /-- Only the predecessor changes. -/
  | behind : t.predecessor ≠ some x → t'.finger = t.finger → t'.predecessor = some x →
      Seating self x t t' (t.predecessor.getD self) self
  /-- Both change, at a member that knew neither neighbour. -/
  | lone : t.predecessor = none → t.peerSuccessor? self = none →
      (∀ i, t'.finger i = if i = 0 then some x else t.finger i) → t'.predecessor = some x →
      Seating self x t t' self self

theorem Seating.ne {self x p s : Node} {t t' : Table} (h : Seating self x t t' p s) : t' ≠ t := by
  rintro rfl
  cases h with
  | ahead hne hfinger _ => exact hne (hfinger 0)
  | behind hne _ hpred => exact hne hpred
  | lone hnone _ _ hpred =>
    rw [hnone] at hpred
    cases hpred

end Table

namespace Network

open RingOverlay.Table (Seating)

variable {net net' : Network} {t : Transport} {k : Nat} {request : JoinRequest} {reply : JoinResponse}
  {x p s : Node}

/-! ## One member -/

/-- The member `j` took `x` in on the arc from `p` to `s`. No other member has changed. -/
structure Seated (net net' : Network) (j : Nat) (x p s : Node) : Prop where
  seating : Seating (net.self j) x (net.table j) (net'.table j) p s
  between : x.id.between p.id s.id = true
  others : Confined [j] net net'

theorem Seated.after {net₁ : Network} {j : Nat} (h : Seated net₁ net' j x p s) (hq : Quiet net net₁) :
    Seated net net' j x p s where
  seating := by
    have hs := h.seating
    rw [hq.kept.self, hq.table] at hs
    exact hs
  between := h.between
  others := hq.confined.trans h.others

/-- A newcomer that the member puts in front of itself was not its successor before: no arc contains its
    end. -/
theorem seated_ahead (hk : k < net.members.length)
    (hb : x.id.between (net.self k).id ((net.peerSuccessor? k).getD (net.self k)).id = true)
    (n : Note) :
    Seated net ((net.note n).setFinger k Table.successorSlot x) k x (net.self k)
      ((net.peerSuccessor? k).getD (net.self k)) where
  seating := by
    rw [table_setFinger (by exact hk), Function.update_self]
    refine .ahead ?_ (Table.finger_setSuccessor _ x) (Table.predecessor_setFinger ..)
    intro hx
    have hne : x ≠ net.self k := by
      rintro rfl
      exact RingId.not_between_left _ _ hb
    rw [peerSuccessor?_of_some hx hne] at hb
    exact RingId.not_between_right _ _ hb
  between := hb
  others := (confined_note net n).trans (confined_setFinger _ (List.mem_singleton_self k) _ x)

theorem seated_behind (hk : k < net.members.length)
    (hb : x.id.between ((net.predecessor? k).getD (net.self k)).id (net.self k).id = true) (n : Note) :
    Seated net ((net.note n).adoptPredecessor k x) k x ((net.predecessor? k).getD (net.self k))
      (net.self k) where
  seating := by
    rw [table_adoptPredecessor (by exact hk), Function.update_self]
    refine .behind ?_ rfl rfl
    intro hx
    rw [predecessor?, hx] at hb
    exact RingId.not_between_left _ _ hb
  between := hb
  others := (confined_note net n).trans (confined_adoptPredecessor _ (List.mem_singleton_self k) x)

theorem seated_lone (hk : k < net.members.length) (hx : ¬x.id = (net.self k).id)
    (hp : net.predecessor? k = none) (hs : net.peerSuccessor? k = none) (n : Note) :
    Seated net (((net.note n).setFinger k Table.successorSlot x).adoptPredecessor k x) k x (net.self k)
      (net.self k) where
  seating := by
    rw [table_adoptPredecessor, table_setFinger (by exact hk), Function.update_self,
      Function.update_self]
    · exact .lone hp hs (Table.finger_setSuccessor _ x) rfl
    · exact (confined_setFinger (net.note n) (List.mem_singleton_self k) _ x).length ▸ hk
  between := RingId.between_self_iff.2 hx
  others := ((confined_note net n).trans (confined_setFinger _ (List.mem_singleton_self k) _ x)).trans
    (confined_adoptPredecessor _ (List.mem_singleton_self k) x)

/-! ## Requests -/

/-- A request to join that was granted with `reply`: some member took the newcomer in, and the answer names
    the arc on which it did. -/
def Granted (net : Network) (request : JoinRequest) (reply : JoinResponse) (net' : Network) : Prop :=
  ∃ x j p s, Contact.required request.requestingNode "requesting_node" = .ok x ∧
    reply = ⟨some s.contact, some p.contact⟩ ∧ j < net.members.length ∧ Seated net net' j x p s

theorem Granted.after {net₁ : Network} (h : Granted net₁ request reply net') (hq : Quiet net net₁) :
    Granted net request reply net' := by
  obtain ⟨x, j, p, s, hr, hreply, hj, hseated⟩ := h
  exact ⟨x, j, p, s, hr, hreply, hq.members ▸ hj, hseated.after hq⟩

/-- A request to join that this transport brings back as granted was granted by a member. -/
def Seats (t : Transport) : Prop :=
  ∀ endpoint request net reply net', net.script = [] →
    t .join endpoint request net = (.ok reply, net') → Granted net request reply net'

/-- Only faults are changed on the way back. -/
theorem eq_ok_of_mapError {ε ε' α : Type} {f : ε → ε'} {a : α} {r : Except ε α × Network}
    (h : Prod.map (Except.mapError f) (fun net => net) r = (.ok a, net')) : r = (.ok a, net') := by
  rcases r with ⟨fault | b, net₁⟩
  · cases h
  · cases h
    rfl

theorem arrived_eq_map {α : Type} (r : Except RingFault α × Network) :
    arrived r = Prod.map (Except.mapError RingFault.remote) (fun net => net) r := by
  rcases r with ⟨fault | a, net₁⟩ <;> rfl

/-- A request that was passed on and granted was granted further on. -/
theorem forwardJoin_seated (ht : Seats t) (hscript : net.script = []) {next : Node}
    (h : forwardJoin t k next request net = (.ok reply, net')) : Granted net request reply net' := by
  rcases forwardJoin_onward net k next request with ⟨fault, hf⟩ | ⟨-, n, hf⟩
  · rw [hf] at h
    cases h
  · rw [hf] at h
    have hnote := quiet_note net n
    exact (ht _ _ _ _ _ (hnote.script.trans hscript) (eq_ok_of_mapError h)).after hnote

/-- A member that grants a request takes the newcomer in itself, or the member that it asked has granted
    it. -/
theorem answerJoin_seated (ht : Seats t) (hscript : net.script = []) (hk : k < net.members.length)
    (h : answerJoin t k request net = (.ok reply, net')) : Granted net request reply net' := by
  cases hr : Contact.required request.requestingNode "requesting_node" with
  | error fault =>
    rw [answerJoin, hr] at h
    cases h
  | ok x =>
    by_cases hid : x.id = (net.self k).id
    · rw [answerJoin_of_eq hr hid] at h
      cases h
    have hplace := choose_spec hid (net.predecessor? k) (net.peerSuccessor? k)
    rw [answerJoin_eq hr hid] at h
    cases hc : JoinPlace.choose (net.self k) (net.predecessor? k) (net.peerSuccessor? k) x.id with
    | lone =>
      rw [hc] at h hplace
      cases h
      exact ⟨x, k, _, _, hr, rfl, hk, seated_lone hk hid hplace.1 hplace.2 _⟩
    | ahead successor =>
      rw [hc] at h hplace
      obtain ⟨rfl, hb⟩ := hplace
      cases h
      exact ⟨x, k, _, _, hr, rfl, hk, seated_ahead hk hb _⟩
    | behind predecessor =>
      rw [hc] at h hplace
      obtain ⟨rfl, hb⟩ := hplace
      cases h
      exact ⟨x, k, _, _, hr, rfl, hk, seated_behind hk hb _⟩
    | elsewhere next =>
      rw [hc] at h
      have hnote := quiet_note net (.joinElsewhere x (net.self k))
      exact (forwardJoin_seated ht (hnote.script.trans hscript) h).after hnote

theorem seats_silent : Seats silent := by
  intro endpoint request net reply net' _ h
  cases h

/-- One level of requests more. -/
theorem Seats.relay (ht : Seats t) : Seats (relay (dispatch t)) := by
  intro endpoint request net reply net' hscript h
  have hask := quiet_ask net .join endpoint request
  cases relay_travelling net .join endpoint request with
  | scripted _ _ hs _ => exact absurd hscript hs
  | lost hr =>
    rw [hr] at h
    cases h
  | reaching l hl hr =>
    rw [hr, arrived_eq_map] at h
    have hlen : l < (net.ask .join endpoint request).members.length := lt_length_of_find? hl
    exact (answerJoin_seated ht (hask.script.trans hscript) hlen (eq_ok_of_mapError h)).after hask

theorem seats_outgoing (d : Nat) : Seats (outgoing relay d) := by
  induction d with
  | zero => exact seats_silent
  | succ d ih => exact ih.relay

/-! ## The network -/

theorem seats_transport : Seats transport := fun endpoint request net =>
  seats_outgoing net.callDepth endpoint request net

/-- Whatever the members have in their tables, a request to join that a member grants, having passed it on
    or not, names two neighbours between which the newcomer lies. Exactly one member has changed then: it
    has the newcomer in slot 0, or it has it as predecessor, or it knew neither neighbour and has both; and
    it told the newcomer of itself and of the neighbour on the other side. -/
theorem granted_between_told (hscript : net.script = []) (hk : k < net.members.length)
    (h : answerJoin transport k request net = (.ok reply, net')) :
    ∃ x j p s, Contact.required request.requestingNode "requesting_node" = .ok x ∧
      reply = ⟨some s.contact, some p.contact⟩ ∧ x.id.between p.id s.id = true ∧
      j < net.members.length ∧ Seating (net.self j) x (net.table j) (net'.table j) p s ∧
      net'.table j ≠ net.table j ∧ ∀ i, i ≠ j → net'.member i = net.member i := by
  obtain ⟨x, j, p, s, hr, hreply, hj, hseated⟩ := answerJoin_seated seats_transport hscript hk h
  refine ⟨x, j, p, s, hr, hreply, hseated.between, hj, hseated.seating, hseated.seating.ne, ?_⟩
  intro i hi
  exact hseated.others.member i fun hmem => hi (List.mem_singleton.1 hmem)

/-- A request that the first of three members passes on: the second one takes the newcomer in. -/
theorem granted_between_told_trio : ∃ reply net',
    answerJoin transport 0 ⟨some ⟨"6", "e"⟩, 1⟩ trio = (.ok reply, net') ∧
    ∃ x j p s, Contact.required (some ⟨"6", "e"⟩) "requesting_node" = .ok x ∧
      reply = ⟨some s.contact, some p.contact⟩ ∧ x.id.between p.id s.id = true ∧
      j < trio.members.length ∧ Seating (trio.self j) x (trio.table j) (net'.table j) p s ∧
      net'.table j ≠ trio.table j ∧ ∀ i, i ≠ j → net'.member i = trio.member i := by
  have hgranted : (answerJoin transport 0 ⟨some ⟨"6", "e"⟩, 1⟩ trio).1.isOk = true := by
    decide +kernel
  cases h : answerJoin transport 0 ⟨some ⟨"6", "e"⟩, 1⟩ trio with
  | mk result net' =>
    rw [h] at hgranted
    cases result with
    | error fault => cases hgranted
    | ok reply => exact ⟨reply, net', rfl, granted_between_told rfl (by decide) h⟩

end Network

end RingOverlay
