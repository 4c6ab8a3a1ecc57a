import RingOverlay.Proofs.Network.Neighbours
import RingOverlay.Proofs.Table.Preceding

/-!
# `Network.Lookup` — lookups reach the owner

In a routable ring a lookup for a point comes to the first member at or after the point, whichever
members the slots past the first one hold. Every request goes to a member that lies strictly between the
one that asks and the point. So the members in between, which `Ring.within` counts, become fewer with
each request, and their number bounds the requests, their nesting and the hops.

## Contents
- **Accounting.** `Asked`, the requests between two states of the network.
- **Routes.** `Routable.route`: the owner, or a member on the way.
- **One member.** `lookup_of_owner`, `lookup_of_forward`, `answerSuccessor_of_lookup`, and how they fail.
- **The chain.** `lookup_hop_ok`; `Descends` and `lookup_descends`, for any bound that falls with each
  request; `lookup_outgoing` and, for members in use, `lookup_owner`.
-/

namespace RingOverlay.Network

open RingOverlay.Ring (owner? next? within)

variable {net : Network} {ms : List Nat} {k : Nat} {id : RingId}

/-! ## Accounting -/

/-- No member changed, and at most `c` requests were sent, all for the method `m`. -/
structure Asked (net net' : Network) (m : Method) (c : Nat) : Prop where
  quiet : Quiet net net'
  calls : ∃ sent : List Call, net'.calls = sent ++ net.calls ∧ sent.length ≤ c ∧
    ∀ call ∈ sent, call.method = m

section Asked

variable {net' : Network} {m : Method} {c : Nat}

theorem Asked.refl (net : Network) (m : Method) : Asked net net m 0 :=
  ⟨.refl net, [], rfl, Nat.le_refl 0, fun _ h => absurd h List.not_mem_nil⟩

theorem Asked.mono (h : Asked net net' m c) {c' : Nat} (hc : c ≤ c') : Asked net net' m c' := by
  obtain ⟨hq, sent, hs, hlen, hm⟩ := h
  exact ⟨hq, sent, hs, Nat.le_trans hlen hc, hm⟩

/-- A note and a request come first. -/
theorem Asked.note_ask {n : Note} {endpoint : String} {request : m.Request}
    (h : Asked ((net.note n).ask m endpoint request) net' m c) : Asked net net' m (c + 1) := by
  obtain ⟨hq, sent, hs, hlen, hm⟩ := h
  refine ⟨((quiet_note net n).trans (quiet_ask _ m endpoint request)).trans hq,
    sent ++ [⟨m, endpoint, request⟩], ?_, ?_, ?_⟩
  · rw [hs, List.append_assoc]
    rfl
  · rw [List.length_append]
    exact Nat.add_le_add_right hlen 1
  · intro call hcall
    rcases List.mem_append.1 hcall with hcall | hcall
    · exact hm call hcall
    · rw [List.mem_singleton] at hcall
      rw [hcall]

end Asked

/-! ## Routes -/

/-- A route leads to the owner, or to a member between here and the point. -/
theorem Routable.route (h : Routable net ms) (ho : Online net ms) (hk : k ∈ ms) (id : RingId) :
    (∃ o, owner? net.point ms id = some o ∧
      (net.table k).route (net.self k) id = .owner (net.self o)) ∨
    (∃ l ∈ ms, (net.point l).between (net.point k) id = true ∧
      (net.table k).route (net.self k) id = .forward (net.self l)) := by
  have hs := h.successor k hk
  rw [Table.route_eq]
  by_cases hid : id.betweenIncl (net.self k).id
      (((net.table k).successor?).getD (net.self k)).id = true
  · rw [if_pos hid]
    cases hnext : next? net.point ms k with
    | none =>
      -- a lone member takes itself for its successor
      rw [hs, hnext]
      refine .inl ⟨k, ?_, rfl⟩
      rw [(Ring.next?_eq_none_iff hk).1 hnext]
      exact Ring.owner?_singleton k id
    | some s =>
      rw [hs, hnext] at hid ⊢
      exact .inl ⟨s, Ring.owner?_of_betweenIncl ho.distinct hk hnext hid, rfl⟩
  · rw [if_neg hid]
    obtain ⟨i, n, hi, hb, hn⟩ := Table.closestPreceding_of_not_betweenIncl hid
    obtain ⟨l, hl, -, rfl⟩ := h.finger k hk i n hi
    exact .inr ⟨l, hl, hb, congrArg _ hn⟩

/-! ## One member -/

section Member

variable {t : Transport} {hops : UInt32}

theorem lookup_of_owner {n : Node} (h : (net.table k).route (net.self k) id = .owner n) :
    lookup t k id hops net = (.ok n, net) := by
  unfold lookup
  simp only
  rw [show (net.member k).table.route (net.member k).self id = .owner n from h]

/-- A member that may forward no more gives up. -/
theorem lookup_of_limit {next : Node}
    (h : (net.table k).route (net.self k) id = .forward next) (hh : (net.member k).hopLimit ≤ hops) :
    lookup t k id hops net
      = (.error (.hopLimitExceeded id.decimal (net.member k).hopLimit), net) := by
  unfold lookup
  simp only
  rw [show (net.member k).table.route (net.member k).self id = .forward next from h]
  simp only
  rw [if_pos hh]

/-- A member gives up when the next one does not answer, and tells what it learned of that. -/
theorem lookup_of_error {next : Node} {fault : TransportFault} {net' : Network}
    (h : (net.table k).route (net.self k) id = .forward next)
    (hh : ¬(net.member k).hopLimit ≤ hops)
    (ht : t .successor next.endpoint ⟨some (net.self k).contact, id.decimal, hops + 1⟩
      (net.note (.lookupForwarded id next (hops + 1))) = (.error fault, net')) :
    lookup t k id hops net
      = (.error (.lookupFailed (id.short ++ " via " ++ next.short ++ ": " ++ fault.message)), net') := by
  unfold lookup
  simp only
  rw [show (net.member k).table.route (net.member k).self id = .forward next from h]
  simp only
  rw [if_neg hh, show t .successor next.endpoint
    ⟨some (net.member k).self.contact, id.decimal, hops + 1⟩
    (net.note (.lookupForwarded id next (hops + 1))) = (.error fault, net') from ht]

/-- A member that may forward passes on what the next member answers. -/
theorem lookup_of_forward {next : Node} {reply : SuccessorResponse} {net' : Network}
    (h : (net.table k).route (net.self k) id = .forward next)
    (hh : ¬(net.member k).hopLimit ≤ hops)
    (ht : t .successor next.endpoint ⟨some (net.self k).contact, id.decimal, hops + 1⟩
      (net.note (.lookupForwarded id next (hops + 1))) = (.ok reply, net')) :
    lookup t k id hops net = (Contact.required reply.successor "successor", net') := by
  unfold lookup
  simp only
  rw [show (net.member k).table.route (net.member k).self id = .forward next from h]
  simp only
  rw [if_neg hh, show t .successor next.endpoint
    ⟨some (net.member k).self.contact, id.decimal, hops + 1⟩
    (net.note (.lookupForwarded id next (hops + 1))) = (.ok reply, net') from ht]

theorem answerSuccessor_of_eq (request : SuccessorRequest)
    (hid : RingId.ofDecimal request.id = .ok id) (he : id = (net.self k).id) :
    answerSuccessor t k request net = (.ok ⟨some (net.self k).contact⟩, net) := by
  unfold answerSuccessor
  rw [hid]
  exact if_pos he

theorem answerSuccessor_of_lookup (request : SuccessorRequest) {owner : Node} {net' : Network}
    (hid : RingId.ofDecimal request.id = .ok id) (hne : id ≠ (net.self k).id)
    (hl : lookup t k id request.hops net = (.ok owner, net')) :
    answerSuccessor t k request net = (.ok ⟨some owner.contact⟩, net') := by
  unfold answerSuccessor
  rw [hid]
  simp only
  rw [if_neg hne, hl]

theorem answerSuccessor_of_error (request : SuccessorRequest) {fault : RingFault} {net' : Network}
    (hid : RingId.ofDecimal request.id = .ok id) (hne : id ≠ (net.self k).id)
    (hl : lookup t k id request.hops net = (.error fault, net')) :
    answerSuccessor t k request net = (.error fault, net') := by
  unfold answerSuccessor
  rw [hid]
  simp only
  rw [if_neg hne, hl]

end Member

/-! ## The chain -/

theorem Routable.of_quiet {net' : Network} (h : Routable net ms) (hq : Quiet net net') :
    Routable net' ms where
  successor k hk := by rw [hq.table, hq.kept.point, hq.kept.self]; exact h.successor k hk
  finger k hk := by rw [hq.table, hq.kept.self]; exact h.finger k hk

/-- A lookup sends what it sends through the depth that the network computes. -/
theorem lookup_transport (k : Nat) (id : RingId) (hops : UInt32) (net : Network) :
    lookup transport k id hops net = lookup (outgoing relay net.callDepth) k id hops net := rfl

/-- What the member `next` finds when the request of the member at `k` has arrived. -/
def asking (net : Network) (k : Nat) (id : RingId) (hops : UInt32) (next : Node) : Network :=
  (net.note (.lookupForwarded id next (hops + 1))).ask .successor next.endpoint
    ⟨some (net.self k).contact, id.decimal, hops + 1⟩

theorem quiet_asking (net : Network) (k : Nat) (id : RingId) (hops : UInt32) (next : Node) :
    Quiet net (net.asking k id hops next) :=
  (quiet_note net _).trans (quiet_ask _ .successor next.endpoint _)

section Hop

variable {l d : Nat} {hops : UInt32} {net' : Network}

/-- The member asked answers for its own point at once. -/
theorem lookup_hop_here (ho : Online net ms) (hl : l ∈ ms)
    (hroute : (net.table k).route (net.self k) id = .forward (net.self l))
    (hh : ¬(net.member k).hopLimit ≤ hops) (hid : id = net.point l) :
    lookup (outgoing relay (d + 1)) k id hops net
      = (.ok (net.self l), net.asking k id hops (net.self l)) := by
  have hself := (quiet_asking net k id hops (net.self l)).kept.self
  have hhere : id = ((net.asking k id hops (net.self l)).self l).id := by
    rw [hself]
    exact hid
  have hanswer := answerSuccessor_of_eq (t := outgoing relay d)
    ⟨some (net.self k).contact, id.decimal, hops + 1⟩ (RingId.ofDecimal_decimal id) hhere
  rw [hself] at hanswer
  rw [lookup_of_forward hroute hh
    (outgoing_eq_ok (m := .successor) (ho.of_kept (quiet_note net _).kept) hl hanswer),
    Contact.required_contact (ho.address l hl)]

/-- Of any other point it tells what its own lookup comes to. -/
theorem lookup_hop_ok (ho : Online net ms) (hl : l ∈ ms)
    (hroute : (net.table k).route (net.self k) id = .forward (net.self l))
    (hh : ¬(net.member k).hopLimit ≤ hops) (hid : id ≠ net.point l) {o : Nat} (hom : o ∈ ms)
    (hlook : lookup (outgoing relay d) l id (hops + 1) (net.asking k id hops (net.self l))
      = (.ok (net.self o), net')) :
    lookup (outgoing relay (d + 1)) k id hops net = (.ok (net.self o), net') := by
  have hself := (quiet_asking net k id hops (net.self l)).kept.self
  have hanswer := answerSuccessor_of_lookup ⟨some (net.self k).contact, id.decimal, hops + 1⟩
    (RingId.ofDecimal_decimal id) (by rw [hself]; exact hid) hlook
  rw [lookup_of_forward hroute hh
    (outgoing_eq_ok (m := .successor) (ho.of_kept (quiet_note net _).kept) hl hanswer),
    Contact.required_contact (ho.address o hom)]

theorem lookup_hop_error (ho : Online net ms) (hl : l ∈ ms)
    (hroute : (net.table k).route (net.self k) id = .forward (net.self l))
    (hh : ¬(net.member k).hopLimit ≤ hops) (hid : id ≠ net.point l) {fault : RingFault}
    (hlook : lookup (outgoing relay d) l id (hops + 1) (net.asking k id hops (net.self l))
      = (.error fault, net')) :
    ∃ fault', lookup (outgoing relay (d + 1)) k id hops net = (.error fault', net') := by
  have hself := (quiet_asking net k id hops (net.self l)).kept.self
  have hanswer := answerSuccessor_of_error ⟨some (net.self k).contact, id.decimal, hops + 1⟩
    (RingId.ofDecimal_decimal id) (by rw [hself]; exact hid) hlook
  exact ⟨_, lookup_of_error hroute hh ((outgoing_succ (ho.of_kept (quiet_note net _).kept) hl d
    .successor ⟨some (net.self k).contact, id.decimal, hops + 1⟩).trans (congrArg arrived hanswer))⟩

end Hop

/-- What bounds a lookup: where `R k c` holds, a lookup at `k` that is forwarded to `l` leaves one request
    less to send from there. -/
def Descends (net : Network) (ms : List Nat) (id : RingId) (R : Nat → Nat → Prop) : Prop :=
  ∀ k ∈ ms, ∀ l ∈ ms, (net.table k).route (net.self k) id = .forward (net.self l) →
    ∀ c, R k c → ∃ c', c = c' + 1 ∧ R l c'

theorem Descends.of_quiet {net' : Network} {R : Nat → Nat → Prop} (h : Descends net ms id R)
    (hq : Quiet net net') : Descends net' ms id R := by
  intro k hk l hl hroute
  rw [hq.table, hq.kept.self] at hroute
  exact h k hk l hl hroute

/-- A bound that falls with each request bounds the requests, their nesting and their hops. -/
theorem lookup_descends (ho : Online net ms) (h : Routable net ms) {R : Nat → Nat → Prop}
    (hR : Descends net ms id R) {n : Nat} (hlim : ∀ k ∈ ms, n ≤ (net.member k).hopLimit.toNat)
    (hk : k ∈ ms) (hops : UInt32) {c d : Nat} (hc : R k c) (hd : c ≤ d) (hh : hops.toNat + c ≤ n) :
    ∃ o net', owner? net.point ms id = some o ∧
      lookup (outgoing relay d) k id hops net = (.ok (net.self o), net') ∧
      Asked net net' .successor c := by
  induction c generalizing net k hops d with
  | zero =>
    rcases h.route ho hk id with ⟨o, hown, hroute⟩ | ⟨l, hl, -, hroute⟩
    · exact ⟨o, net, hown, lookup_of_owner hroute, .refl net _⟩
    · obtain ⟨c', hc', -⟩ := hR k hk l hl hroute 0 hc
      omega
  | succ c ih =>
    rcases h.route ho hk id with ⟨o, hown, hroute⟩ | ⟨l, hl, hb, hroute⟩
    · exact ⟨o, net, hown, lookup_of_owner hroute, (Asked.refl net _).mono (Nat.zero_le _)⟩
    · obtain ⟨c', hc', hRl⟩ := hR k hk l hl hroute _ hc
      obtain rfl := Nat.succ_injective hc'
      obtain ⟨d, rfl⟩ := Nat.exists_eq_add_of_le' (Nat.le_trans (Nat.le_add_left 1 c) hd)
      have hlimit := hlim k hk
      obtain ⟨hmay, hhops⟩ : ¬(net.member k).hopLimit ≤ hops ∧ (hops + 1).toNat = hops.toNat + 1 :=
        not_limit_le (by omega)
      have hq := quiet_asking net k id hops (net.self l)
      obtain ⟨o, net', hown, hlook, hasked⟩ := ih (ho.of_kept hq.kept) (h.of_quiet hq)
        (hR.of_quiet hq) (fun k hk => by rw [hq.kept.hopLimit]; exact hlim k hk) hl (hops + 1) hRl
        (Nat.le_of_succ_le_succ hd) (by omega)
      rw [hq.kept.point] at hown
      rw [hq.kept.self] at hlook
      have hid : id ≠ net.point l := by
        rintro rfl
        exact RingId.not_between_right _ _ hb
      have hom := ((Ring.owner?_eq_some_iff ho.distinct).1 hown).1
      exact ⟨o, net', hown, lookup_hop_ok ho hl hroute hmay hid hom hlook, hasked.note_ask⟩

/-- Whichever members the slots hold, there are fewer members left between here and the point. -/
theorem Routable.descends (h : Routable net ms) (ho : Online net ms) (id : RingId) :
    Descends net ms id fun k c => within net.point ms (net.point k) id ≤ c := by
  intro k hk l hl hroute c hc
  rcases h.route ho hk id with ⟨o, -, hroute'⟩ | ⟨j, hj, hb, hroute'⟩
  · rw [hroute] at hroute'
    cases hroute'
  · rw [hroute, Table.Route.forward.injEq] at hroute'
    obtain rfl := ho.self_injective hl hj hroute'
    have hfall := Ring.within_right_lt hj hb
    obtain ⟨c, rfl⟩ := Nat.exists_eq_add_of_le' (Nat.le_trans (Nat.succ_le_of_lt
      (Nat.zero_lt_of_lt hfall)) hc)
    exact ⟨c, rfl, by omega⟩

/-- The members between here and the point bound the requests, their nesting and their hops. -/
theorem lookup_outgoing (ho : Online net ms) (h : Routable net ms)
    (hlim : ∀ k ∈ ms, ms.length ≤ (net.member k).hopLimit.toNat) (hk : k ∈ ms) (hops : UInt32)
    {d : Nat} (hd : within net.point ms (net.point k) id ≤ d)
    (hh : hops.toNat + within net.point ms (net.point k) id < ms.length) :
    ∃ o net', owner? net.point ms id = some o ∧
      lookup (outgoing relay d) k id hops net = (.ok (net.self o), net') ∧
      Asked net net' .successor (within net.point ms (net.point k) id) :=
  lookup_descends ho h (h.descends ho id) hlim hk hops (Nat.le_refl _) hd (Nat.le_of_lt hh)

/-- The lookup of a member in use comes to the owner. -/
theorem Routable.lookup_eq (h : Routable net ms) (ho : Online net ms)
    (hlim : ∀ k ∈ ms, ms.length ≤ (net.member k).hopLimit.toNat) (hk : k ∈ ms) (id : RingId) :
    ∃ o net', owner? net.point ms id = some o ∧ lookup transport k id 0 net = (.ok (net.self o), net') ∧
      Asked net net' .successor (within net.point ms (net.point k) id) := by
  have hself : within net.point ms (net.point k) id < ms.length :=
    Ring.within_lt_length hk (RingId.not_between_left (net.point k) id)
  have hbelow := hopLimit_lt_callDepth (ho.lt_length hk)
  have hlimit := hlim k hk
  rw [lookup_transport]
  exact lookup_outgoing ho h hlim hk 0 (by omega) (by rw [UInt32.toNat_zero]; omega)

/-- Every lookup at every member comes to the owner, with fewer requests than there are members: the
    member's own lookup, and the answer that it gives to anyone who asks. -/
theorem lookup_owner (ho : Online net ms) (h : Routable net ms)
    (hlim : ∀ k ∈ ms, ms.length ≤ (net.member k).hopLimit.toNat) (hk : k ∈ ms) (id : RingId) :
    ∃ o, owner? net.point ms id = some o ∧
      (∃ net', lookup transport k id 0 net = (.ok (net.self o), net') ∧
        Asked net net' .successor (ms.length - 1)) ∧
      ∀ sender text, RingId.ofDecimal text = .ok id → ∃ net',
        answerSuccessor transport k ⟨sender, text, 0⟩ net
          = (.ok ⟨some (net.self o).contact⟩, net') ∧
        Asked net net' .successor (ms.length - 1) := by
  have hself : within net.point ms (net.point k) id < ms.length :=
    Ring.within_lt_length hk (RingId.not_between_left (net.point k) id)
  have hbelow := hopLimit_lt_callDepth (ho.lt_length hk)
  have hlimit := hlim k hk
  have hdepth : within net.point ms (net.point k) id ≤ net.callDepth := by omega
  obtain ⟨o, net', hown, hlook, hasked⟩ := lookup_outgoing ho h hlim hk 0 hdepth
    (by rw [UInt32.toNat_zero]; omega)
  rw [← lookup_transport] at hlook
  have hasked := hasked.mono (Nat.le_sub_one_of_lt hself)
  refine ⟨o, hown, ⟨net', hlook, hasked⟩, ?_⟩
  intro sender text htext
  by_cases he : id = (net.self k).id
  · -- its own point: the member answers at once, and it is the owner
    refine ⟨net, ?_, (Asked.refl net _).mono (Nat.zero_le _)⟩
    have hko : k = o := by
      obtain ⟨hom, hmin⟩ := (Ring.owner?_eq_some_iff ho.distinct).1 hown
      have hle := hmin k hk
      rw [he, show (net.self k).id = net.point k from rfl, RingId.dist_self, Nat.le_zero] at hle
      by_contra hne
      have hpos := RingId.dist_pos_iff.2 (Ring.place_ne ho.distinct hk hom (Ne.symm hne))
      omega
    rw [answerSuccessor_of_eq _ htext he, hko]
  · exact ⟨net', answerSuccessor_of_lookup _ htext he hlook, hasked⟩

/-- A lookup at the second of three members, for a point that is its own: it asks the third, who asks the first,
    who knows. So many requests there may be, and no more. -/
theorem lookup_owner_trio : ∃ o, owner? trio.point [0, 1, 2] (.ofNat 4) = some o ∧
    (lookup transport 1 (.ofNat 4) 0 trio).2.calls.map Call.endpoint = ["a", "c"] ∧
    (∃ net', lookup transport 1 (.ofNat 4) 0 trio = (.ok (trio.self o), net') ∧
      Asked trio net' .successor 2) ∧
    ∀ sender text, RingId.ofDecimal text = .ok (.ofNat 4) → ∃ net',
      answerSuccessor transport 1 ⟨sender, text, 0⟩ trio
        = (.ok ⟨some (trio.self o).contact⟩, net') ∧ Asked trio net' .successor 2 := by
  obtain ⟨o, hown, hlook, hanswer⟩ :=
    lookup_owner (online_trio.sublist (List.sublist_cons_self 3 [0, 1, 2])) consistent_trio.toRoutable
      (by decide) (show 1 ∈ [0, 1, 2] by decide) (.ofNat 4)
  exact ⟨o, hown, by decide +kernel, hlook, hanswer⟩

end RingOverlay.Network
