import RingOverlay.Proofs.Network.Depth
import RingOverlay.Proofs.Network.Rounds

/-!
# `Network.Admission` — how newcomers are taken in

A request to join is passed on from successor to successor until a member takes the newcomer in next to
itself. That member decides by the neighbours that it knows, which may be out of date. Whatever they are,
the newcomer lies on the arc between the member and the neighbour that it replaces, and that is all that
`Links.Entry` asks for.

A member that enters changes the tables in three places: at the member that takes it in, at itself, and
by its first round of stabilizing. A request that is refused changes no table.

## Contents
- **One member.** `answerJoin_eq`, `answerJoin_lone`.
- **The chain.** `Taken`, what comes of a request that is granted, and `LooseRing.answerJoin_cases`.
- **The newcomer.** `learn_neighbours`, `LooseRing.join_cases`, `join_lone`.
- **Entering.** `LooseRing.enter_of_join`, `LooseRing.enter_cases`, `SoundRing.enter_cases`, `enter_lone`.
-/

namespace RingOverlay.Network

open RingOverlay.Ring (Links)
open RingOverlay.Ring.Links (Sound Fits Entry ne_inherited)

variable {net net' : Network} {ms : List Nat} {b k : Nat} {L : Links}

/-! ## One member -/

section Member

variable {t : Transport} {request : JoinRequest} {source : Node}

theorem answerJoin_of_eq (hr : Contact.required request.requestingNode "requesting_node" = .ok source)
    (he : source.id = (net.self k).id) :
    answerJoin t k request net = (.error (.idTaken source.id (net.self k)), net) := by
  unfold answerJoin
  rw [hr]
  exact if_pos he

/-- What a member does with a newcomer of another point, place by place. -/
theorem answerJoin_eq (hr : Contact.required request.requestingNode "requesting_node" = .ok source)
    (hne : ¬source.id = (net.self k).id) :
    answerJoin t k request net =
      match JoinPlace.choose (net.self k) (net.predecessor? k) (net.peerSuccessor? k) source.id with
      | .lone => (.ok ⟨some (net.self k).contact, some (net.self k).contact⟩,
          ((net.note (.joinedLone source (net.self k))).setFinger k Table.successorSlot
            source).adoptPredecessor k source)
      | .ahead s => (.ok ⟨some s.contact, some (net.self k).contact⟩,
          (net.note (.becameSuccessor source (net.self k))).setFinger k Table.successorSlot source)
      | .behind p => (.ok ⟨some (net.self k).contact, some p.contact⟩,
          (net.note (.becamePredecessor source (net.self k))).adoptPredecessor k source)
      | .elsewhere s =>
          forwardJoin t k s request (net.note (.joinElsewhere source (net.self k))) := by
  unfold answerJoin
  rw [hr]
  exact if_neg hne

/-- A lone member takes the newcomer for both its neighbours. -/
theorem answerJoin_lone (t : Transport) (request : JoinRequest)
    (hr : Contact.required request.requestingNode "requesting_node" = .ok source)
    (hne : ¬source.id = (net.self k).id) (hk : k < net.members.length) {who : List Nat}
    (hkm : k ∈ who) (hp : net.predecessor? k = none) (hs : net.peerSuccessor? k = none) :
    ∃ net', answerJoin t k request net
        = (.ok ⟨some (net.self k).contact, some (net.self k).contact⟩, net') ∧ Confined who net net' ∧
      net'.table = Function.update net.table k
        (((net.table k).setFinger Table.successorSlot source).setPredecessor source) := by
  have hnote : Confined who net (net.note (.joinedLone source (net.self k))) := confined_note net _
  have hset := confined_setFinger (net.note (.joinedLone source (net.self k))) hkm Table.successorSlot
    source
  have htable := table_setFinger
    (show k < (net.note (.joinedLone source (net.self k))).members.length from hk)
    Table.successorSlot source
  rw [answerJoin_eq hr hne, hp, hs]
  refine ⟨_, rfl, (hnote.trans hset).trans (confined_adoptPredecessor _ hkm source), ?_⟩
  rw [table_adoptPredecessor ((hnote.trans hset).length.symm ▸ hk), htable, Function.update_self,
    Function.update_idem]
  rfl

end Member

/-! ## The chain -/

/-- A request that is passed on to a member that is online gets the answer of that member. -/
theorem forwardJoin_outgoing (ho : Online net ms) {l : Nat} (hl : l ∈ ms) {d : Nat}
    {request : JoinRequest} (hh : ¬(net.member k).hopLimit ≤ request.hops) (n : Note) :
    ∃ net', Quiet net net' ∧
      forwardJoin (outgoing relay (d + 1)) k (net.self l) request (net.note n)
        = Prod.map (Except.mapError .transport) (fun net => net)
            (arrived (answerJoin (outgoing relay d) l { request with hops := request.hops + 1 } net')) := by
  have hnote := (quiet_note net n).trans
    (quiet_note _ (.joinForwarded (net.self l) (request.hops + 1)))
  refine ⟨_, hnote.trans (quiet_ask _ .join (net.self l).endpoint
    { request with hops := request.hops + 1 }), ?_⟩
  have hh' : ¬((net.note n).member k).hopLimit ≤ request.hops := hh
  rw [forwardJoin_eq hh']
  exact congrArg _ (outgoing_succ (ho.of_kept hnote.kept) hl d .join _)

/-- A request that is passed on fails, or it gets the answer of the member that it is passed on to, which
    may ask one level less deep. -/
theorem forwardJoin_cases (ho : Online net ms) {l : Nat} (hl : l ∈ ms) (d : Nat)
    (request : JoinRequest) (n : Note) :
    (∃ fault net', forwardJoin (outgoing relay d) k (net.self l) request (net.note n)
        = (.error fault, net') ∧ Quiet net net') ∨
    (∃ d' net', d = d' + 1 ∧ Quiet net net' ∧
      forwardJoin (outgoing relay d) k (net.self l) request (net.note n)
        = Prod.map (Except.mapError .transport) (fun net => net)
            (arrived (answerJoin (outgoing relay d') l
              { request with hops := request.hops + 1 } net'))) := by
  have hnote := quiet_note net n
  by_cases hh : ((net.note n).member k).hopLimit ≤ request.hops
  · obtain ⟨fault, hf⟩ := forwardJoin_of_limit (net.self l) hh
    exact .inl ⟨fault, _, hf (outgoing relay d), hnote⟩
  · cases d with
    | zero =>
      -- nobody may answer the request any more
      exact .inl ⟨_, _, forwardJoin_eq hh, hnote.trans (quiet_note _ _)⟩
    | succ d =>
      obtain ⟨net', hq, hf⟩ := forwardJoin_outgoing ho hl hh n
      exact .inr ⟨d, net', rfl, hq, hf⟩

/-- A member `j` took `x` in: what it answers, and the entry of its table that changed. -/
inductive Taken (net : Network) (ms : List Nat) (L : Links) (x : Node) :
    JoinResponse → Network → Prop where
  | ahead {j : Nat} {net' : Network} : j ∈ ms →
      x.id.between (net.point j) (net.point (L.succ j)) = true → Confined ms net net' →
      net'.table = Function.update net.table j ((net.table j).setFinger Table.successorSlot x) →
      Taken net ms L x ⟨some (net.self (L.succ j)).contact, some (net.self j).contact⟩ net'
  | behind {j : Nat} {net' : Network} : j ∈ ms →
      x.id.between (net.point (L.pred j)) (net.point j) = true → Confined ms net net' →
      net'.table = Function.update net.table j ((net.table j).setPredecessor x) →
      Taken net ms L x ⟨some (net.self j).contact, some (net.self (L.pred j)).contact⟩ net'

/-- Nothing but reports and requests came before. -/
theorem Taken.of_quiet {net'' : Network} {x : Node} {reply : JoinResponse}
    (h : Taken net' ms L x reply net'') (hq : Quiet net net') : Taken net ms L x reply net'' := by
  cases h with
  | ahead hj hb hconf ht =>
    rw [hq.kept.point] at hb
    rw [hq.table] at ht
    rw [hq.kept.self]
    exact .ahead hj hb (hq.confined.trans hconf) ht
  | behind hj hb hconf ht =>
    rw [hq.kept.point] at hb
    rw [hq.table] at ht
    rw [hq.kept.self]
    exact .behind hj hb (hq.confined.trans hconf) ht

/-- A member takes a newcomer in, or it passes the request on, which it only does where the newcomer
    does not lie ahead of it as far as its neighbours tell. -/
theorem LooseRing.answerJoin_step (h : LooseRing net ms L) (hk : k ∈ ms) {t : Transport}
    {request : JoinRequest} {x : Node}
    (hr : Contact.required request.requestingNode "requesting_node" = .ok x)
    (hne : ¬x.id = (net.self k).id) :
    (∃ reply net', answerJoin t k request net = (.ok reply, net') ∧ Taken net ms L x reply net') ∨
    (answerJoin t k request net
        = forwardJoin t k (net.self (L.succ k)) request (net.note (.joinElsewhere x (net.self k))) ∧
      (x.id.between (net.point (L.pred k)) (net.point (L.succ k)) = true →
        ¬x.id.between (net.point k) (net.point (L.succ k)) = true)) := by
  have hlen := h.online.lt_length hk
  rw [answerJoin_eq hr hne, h.predecessor?_eq hk, h.peerSuccessor?_eq hk, choose_of_some]
  unfold Network.point
  by_cases hps : x.id.between (net.self (L.pred k)).id (net.self (L.succ k)).id = true
  · rw [if_neg (not_not.2 hps)]
    by_cases hahead : x.id.between (net.self k).id (net.self (L.succ k)).id = true
    · rw [if_pos hahead]
      exact .inl ⟨_, _, rfl, .ahead hk hahead
        ((confined_note net _).trans (confined_setFinger _ hk _ x)) (table_setFinger (by exact hlen) _ x)⟩
    · rw [if_neg hahead]
      by_cases hbehind : x.id.between (net.self (L.pred k)).id (net.self k).id = true
      · rw [if_pos hbehind]
        exact .inl ⟨_, _, rfl, .behind hk hbehind
          ((confined_note net _).trans (confined_adoptPredecessor _ hk x))
          (table_adoptPredecessor (by exact hlen) x)⟩
      · rw [if_neg hbehind]
        exact .inr ⟨rfl, fun _ => hahead⟩
  · rw [if_pos hps]
    exact .inr ⟨rfl, fun hb => absurd hb hps⟩

/-- A request to join comes to a member that takes the newcomer in next to itself, or it is refused. -/
theorem LooseRing.answerJoin_cases (h : LooseRing net ms L) (hk : k ∈ ms) (d : Nat)
    (request : JoinRequest) {x : Node}
    (hr : Contact.required request.requestingNode "requesting_node" = .ok x) :
    (∃ fault net', answerJoin (outgoing relay d) k request net = (.error fault, net') ∧
      Quiet net net') ∨
    (∃ reply net', answerJoin (outgoing relay d) k request net = (.ok reply, net') ∧
      Taken net ms L x reply net') := by
  -- induction on the depth: a member that is asked later may ask less deep
  induction d using Nat.strong_induction_on generalizing net k request with
  | _ d ih =>
    by_cases hid : x.id = (net.self k).id
    · exact .inl ⟨_, _, answerJoin_of_eq hr hid, .refl net⟩
    rcases h.answerJoin_step hk hr hid with htaken | ⟨hforward, -⟩
    · exact .inr htaken
    rw [hforward]
    have hsm := (h.loose.succ k hk).1
    rcases forwardJoin_cases h.online hsm d request (.joinElsewhere x (net.self k)) with
      hfail | ⟨d', net₁, rfl, hq, hf⟩
    · exact .inl hfail
    · rcases ih d' (Nat.lt_succ_self d') (h.of_quiet hq) hsm
        { request with hops := request.hops + 1 } hr with
        ⟨fault, net', ha, hq'⟩ | ⟨reply, net', ha, ht⟩
      · rw [ha] at hf
        exact .inl ⟨_, net', hf, hq.trans hq'⟩
      · rw [ha] at hf
        exact .inr ⟨reply, net', hf, ht.of_quiet hq⟩

/-! ## The newcomer -/

section Newcomer

variable {t : Transport} {through : String}

theorem join_of_error {fault : TransportFault}
    (ht : t .join through { requestingNode := some (net.self k).contact }
      (net.note (.joining (net.self k) through)) = (.error fault, net')) :
    ∃ fault', join t k through net = (.error fault', net') := by
  unfold join
  simp only
  rw [ht]
  exact ⟨_, rfl⟩

/-- A newcomer takes the neighbours that it was told. -/
theorem join_of_reply {reply : JoinResponse} {s p : Node}
    (ht : t .join through { requestingNode := some (net.self k).contact }
      (net.note (.joining (net.self k) through)) = (.ok reply, net'))
    (hs : Contact.required reply.successor "successor" = .ok s) (hne : ¬s = net.self k)
    (hp : Contact.optional reply.predecessor = .ok (some p)) :
    join t k through net = (.ok s, ((net'.setFinger k Table.successorSlot s).learnPredecessor k
      (some p)).note (.joined (net.self k) s)) := by
  unfold join
  simp only
  rw [ht]
  simp only
  rw [hs]
  simp only
  rw [if_neg hne, hp]

/-- A member that knew nobody knows its two neighbours then. -/
theorem learn_neighbours (hk : k < net.members.length) {who : List Nat} (hkm : k ∈ who)
    (hempty : net.table k = .empty) {s p : Node} (hp : p ≠ net.self k) :
    Confined who net ((net.setFinger k Table.successorSlot s).learnPredecessor k (some p)) ∧
      ((net.setFinger k Table.successorSlot s).learnPredecessor k (some p)).table
        = Function.update net.table k
          ((Table.empty.setFinger Table.successorSlot s).setPredecessor p) := by
  have hconf := confined_setFinger net hkm Table.successorSlot s
  have htable := table_setFinger hk Table.successorSlot s
  rw [hempty] at htable
  have hnone : (net.setFinger k Table.successorSlot s).predecessor? k = none := by
    rw [predecessor?, htable, Function.update_self, Table.predecessor_setFinger]
    rfl
  have hlearn : (net.setFinger k Table.successorSlot s).learnPredecessor k (some p)
      = (net.setFinger k Table.successorSlot s).setPredecessor k p := by
    unfold learnPredecessor
    simp only
    rw [hnone, hconf.self]
    exact if_pos ⟨hp, rfl⟩
  rw [hlearn]
  refine ⟨hconf.trans (confined_setPredecessor _ hkm p), ?_⟩
  rw [table_setPredecessor (hconf.length.symm ▸ hk), htable, Function.update_self,
    Function.update_idem]

end Newcomer

/-- A newcomer's request goes to the member that it knows of. -/
theorem request_join (ho : Online net ms) {l : Nat} (hl : l ∈ ms) (request : JoinRequest) (n : Note) :
    ∃ d net', d + 1 = net.callDepth ∧ Quiet net net' ∧
      transport .join (net.self l).endpoint request (net.note n)
        = arrived (answerJoin (outgoing relay d) l request net') := by
  have hnote := quiet_note net n
  exact ⟨net.callDepth - 1, _, rfl, hnote.trans (quiet_ask _ .join (net.self l).endpoint request),
    outgoing_succ (ho.of_kept hnote.kept) hl (net.callDepth - 1) .join request⟩

/-- A newcomer that is answered has a place among the members. -/
theorem join_of_answer {through : String} {net₁ : Network} {s p : Nat}
    (ho : Online net (k :: ms))
    (ht : transport .join through { requestingNode := some (net.self k).contact }
      (net.note (.joining (net.self k) through))
        = (.ok ⟨some (net.self s).contact, some (net.self p).contact⟩, net₁))
    (hconf : Confined (k :: ms) net net₁) (hl : Linked net₁ (k :: ms) ms L)
    (hempty : net₁.table k = .empty)
    (hs : Fits (k :: ms) (· ≠ ·) ⟨Function.update L.succ k s, Function.update L.pred k p⟩) :
    ∃ net₂, join transport k through net = (.ok (net.self s), net₂) ∧ Confined (k :: ms) net net₂ ∧
      LooseRing net₂ (k :: ms) ⟨Function.update L.succ k s, Function.update L.pred k p⟩ := by
  have hkm : k ∈ k :: ms := List.mem_cons_self ..
  obtain ⟨hsm, hsk⟩ := hs.succ k hkm
  obtain ⟨hpm, hpk⟩ := hs.pred k hkm
  simp only [Function.update_self] at hsm hsk hpm hpk
  have hsne := ho.self_ne hsm hkm hsk.symm
  have hjoin := join_of_reply ht (Contact.required_contact (ho.address s hsm) _) hsne
    (Contact.optional_contact (ho.address p hpm))
  have hpne : net.self p ≠ net₁.self k := by
    rw [hconf.self]
    exact ho.self_ne hpm hkm hpk
  obtain ⟨hconf₂, htable₂⟩ := learn_neighbours (hconf.length.symm ▸ ho.lt_length hkm) hkm hempty
    (s := net.self s) hpne
  have hlinked₂ := hl.update hconf₂.toKept (s := s) (p := p) (by rw [hconf.self]; exact htable₂)
    (Shows.fresh hsm hsk.symm)
  have hall := (hconf.trans hconf₂).trans (confined_note _ (.joined (net.self k) (net.self s)))
  exact ⟨_, hjoin, hall, ho.of_kept hall.toKept, hlinked₂.of_kept (quiet_note _ _).kept rfl, hs⟩

/-- A newcomer that a member took in has its place next to that member. -/
theorem LooseRing.join_of_taken (h : LooseRing net ms L) {through : String} {net₁ : Network}
    {reply : JoinResponse} (ho : Online net (k :: ms)) (hempty : net.table k = .empty)
    (ht : transport .join through { requestingNode := some (net.self k).contact }
      (net.note (.joining (net.self k) through)) = (.ok reply, net₁))
    (htaken : Taken net ms L (net.self k) reply net₁) :
    ∃ L' s net₂, Entry net.point ms L k L' ∧ join transport k through net = (.ok s, net₂) ∧
      Confined (k :: ms) net net₂ ∧ LooseRing net₂ (k :: ms) L' := by
  have hk := (List.nodup_cons.1 ho.distinct.nodup).1
  have hsub := List.subset_cons_self k ms
  have hmono := h.linked.mono hsub
  cases htaken with
  | @ahead j _ hj hb hconf htable =>
    have hjk : k ≠ j := fun he => hk (he ▸ hj)
    have hentry : Entry net.point ms L k (L.insertAfter j k) := .after hj hb
    obtain ⟨net₂, hjoin, hring⟩ := join_of_answer ho ht (hconf.mono hsub)
      (hmono.setSuccessor hj (List.mem_cons_self ..) hjk hconf.toKept htable)
      (by rw [htable, Function.update_of_ne hjk, hempty]) (h.loose.entry ne_inherited hentry)
    exact ⟨_, _, net₂, hentry, hjoin, hring⟩
  | @behind j _ hj hb hconf htable =>
    have hjk : k ≠ j := fun he => hk (he ▸ hj)
    have hentry : Entry net.point ms L k (L.insertBefore j k) := .before hj hb
    obtain ⟨net₂, hjoin, hring⟩ := join_of_answer ho ht (hconf.mono hsub)
      (hmono.setPredecessor hj hconf.toKept htable)
      (by rw [htable, Function.update_of_ne hjk, hempty]) (h.loose.entry ne_inherited hentry)
    exact ⟨_, _, net₂, hentry, hjoin, hring⟩

/-- A newcomer finds its place next to some member, or it is refused and no table has changed. -/
theorem LooseRing.join_cases (h : LooseRing net ms L) (ho : Online net (k :: ms))
    (hempty : net.table k = .empty) {l : Nat} (hl : l ∈ ms) :
    (∃ fault net', join transport k (net.self l).endpoint net = (.error fault, net') ∧
      Quiet net net') ∨
    (∃ L' s net₂, Entry net.point ms L k L' ∧
      join transport k (net.self l).endpoint net = (.ok s, net₂) ∧
      Confined (k :: ms) net net₂ ∧ LooseRing net₂ (k :: ms) L') := by
  have hr := Contact.required_contact (ho.address k (List.mem_cons_self ..)) "requesting_node"
  obtain ⟨d, net₁, -, hq, ht⟩ := request_join h.online hl ⟨some (net.self k).contact, 0⟩
    (.joining (net.self k) (net.self l).endpoint)
  rcases (h.of_quiet hq).answerJoin_cases hl d ⟨some (net.self k).contact, 0⟩ hr with
    ⟨fault, net', ha, hq'⟩ | ⟨reply, net', ha, htaken⟩
  · rw [ha] at ht
    obtain ⟨fault', hj⟩ := join_of_error ht
    exact .inl ⟨fault', net', hj, hq.trans hq'⟩
  · rw [ha] at ht
    exact .inr (h.join_of_taken ho hempty ht (htaken.of_quiet hq))

/-- A newcomer always finds its place next to a member that is alone. -/
theorem join_lone {m : Nat} (ho : Online net [k, m]) (hempty : net.table k = .empty)
    (hc : Consistent net [m]) :
    ∃ net₂, join transport k (net.self m).endpoint net = (.ok (net.self m), net₂) ∧
      Confined [k, m] net net₂ ∧ LooseRing net₂ [k, m] (Links.pair m k) := by
  have hm : m ∈ [m] := List.mem_singleton_self m
  have hkm : k ∈ [k, m] := List.mem_cons_self ..
  have hmm : m ∈ [k, m] := List.mem_cons_of_mem k hm
  have hne : k ≠ m := List.ne_of_not_mem_cons (List.nodup_cons.1 ho.distinct.nodup).1
  have hr := Contact.required_contact (ho.address k hkm) "requesting_node"
  have hid : ¬(net.self k).id = (net.self m).id :=
    fun he => hne (ho.distinct.place_inj k hkm m hmm he)
  -- the lone member knows nobody, so it takes the newcomer for both neighbours
  have hpred : net.predecessor? m = none := by
    rw [hc.predecessor m hm, (Ring.prev?_eq_none_iff hm).2 rfl, Option.map_none]
  have hpeer : net.peerSuccessor? m = none := by
    apply peerSuccessor?_of_none
    rw [hc.successor m hm, (Ring.next?_eq_none_iff hm).2 rfl, Option.map_none]
  obtain ⟨d, net₁, -, hq, ht⟩ := request_join (ho.sublist (List.sublist_cons_self k [m])) hm
    ⟨some (net.self k).contact, 0⟩ (.joining (net.self k) (net.self m).endpoint)
  have hid₁ : ¬(net.self k).id = (net₁.self m).id := by
    rw [hq.kept.self]
    exact hid
  obtain ⟨net₂, ha, hconf, htable⟩ := answerJoin_lone (outgoing relay d)
    ⟨some (net.self k).contact, 0⟩ hr hid₁ (hq.kept.length.symm ▸ ho.lt_length hmm) hmm
    (by rw [predecessor?, hq.table]; exact hpred)
    (by rw [peerSuccessor?, hq.table, hq.kept.self]; exact hpeer)
  rw [ha, hq.kept.self] at ht
  rw [hq.table] at htable
  -- what the lone member knows then, and what the newcomer is told
  have hshows : Shows net₂.self [k, m] m k k (net₂.table m) := by
    rw [(hq.kept.trans hconf.toKept).self, htable, Function.update_self]
    refine ⟨Table.finger_setFinger_self _ Table.successorSlot _, rfl,
      forall_finger_setPredecessor (forall_finger_setFinger ?_ _ ⟨k, hkm, hne, rfl⟩) _⟩
    intro i n hn
    obtain ⟨l, hl, hlm, -⟩ := hc.finger m hm i n hn
    exact absurd (List.mem_singleton.1 hl) hlm
  have hpair : (⟨Function.update (Links.pair m k).succ k m, Function.update (Links.pair m k).pred k m⟩
      : Links) = Links.pair m k := by
    rw [Function.update_eq_self_iff.2 (if_neg hne).symm, Function.update_eq_self_iff.2 (if_neg hne).symm]
  have hlinked : Linked net₂ [k, m] [m] (Links.pair m k) := by
    intro i hi
    rw [List.mem_singleton] at hi
    subst hi
    simp only [Links.pair, if_true]
    exact hshows
  have hsound : Sound net.point [k, m] m (Links.pair m k) := Sound.pair hne
  obtain ⟨net₂, hjoin, hring⟩ := join_of_answer ho ht (hq.confined.trans hconf) hlinked
    (by rw [htable, Function.update_of_ne hne, hempty]) (by rw [hpair]; exact hsound.loose)
  rw [hpair] at hring
  exact ⟨net₂, hjoin, hring⟩

/-! ## Entering -/

/-- A newcomer that has its place runs its first round of stabilizing. -/
theorem LooseRing.enter_of_join {net₂ : Network} (h : LooseRing net₂ ms L) (hk : k ∈ ms)
    {through : String} {s : Node} (hj : join transport k through net = (.ok s, net₂)) :
    ∃ net', enter transport k through net = (.ok (), net') ∧ Confined ms net₂ net' ∧
      LooseRing net' ms (L.stabilize net₂.point k) := by
  obtain ⟨net', hstab, hconf, hring⟩ := h.stabilize hk
  have hready := confined_announceIfReady net' hk
  refine ⟨net'.announceIfReady k, ?_, hconf.trans hready,
    hring.of_kept hready.toKept (table_announceIfReady net' k)⟩
  rw [enter, hj]
  simp only
  rw [hstab]

/-- A newcomer enters next to some member, or it is refused and no table has changed. -/
theorem LooseRing.enter_cases (h : LooseRing net ms L) (ho : Online net (k :: ms))
    (hempty : net.table k = .empty) {l : Nat} (hl : l ∈ ms) :
    (∃ fault net', enter transport k (net.self l).endpoint net = (.error fault, net') ∧
      Quiet net net') ∨
    (∃ L' net', Entry net.point ms L k L' ∧
      enter transport k (net.self l).endpoint net = (.ok (), net') ∧
      Confined (k :: ms) net net' ∧ LooseRing net' (k :: ms) (L'.stabilize net.point k)) := by
  rcases h.join_cases ho hempty hl with
    ⟨fault, net', hjoin, hq⟩ | ⟨L', s, net₂, hentry, hjoin, hconf, hring⟩
  · refine .inl ⟨fault, net', ?_, hq⟩
    rw [enter, hjoin]
  · obtain ⟨net', henter, hconf', hring'⟩ := hring.enter_of_join (List.mem_cons_self ..) hjoin
    rw [hconf.point] at hring'
    exact .inr ⟨L', net', hentry, henter, hconf.trans hconf', hring'⟩

/-- The links of a newcomer that has entered are sound where those of the members are. -/
theorem SoundRing.enter_cases (h : SoundRing net ms b L) (ho : Online net (k :: ms))
    (hempty : net.table k = .empty) {l : Nat} (hl : l ∈ ms) :
    (∃ fault net', enter transport k (net.self l).endpoint net = (.error fault, net') ∧
      Quiet net net') ∨
    (∃ L' net', Entry net.point ms L k L' ∧
      enter transport k (net.self l).endpoint net = (.ok (), net') ∧
      Confined (k :: ms) net net' ∧ SoundRing net' (k :: ms) b (L'.stabilize net.point k)) := by
  rcases h.loose.enter_cases ho hempty hl with hrefused | ⟨L', net', hentry, he, hconf, hring⟩
  · exact .inl hrefused
  · refine .inr ⟨L', net', hentry, he, hconf, ?_⟩
    exact hring.sound hconf.toKept ((h.sound.entry hentry).stabilize (List.mem_cons_self ..))

/-- A newcomer always enters next to a member that is alone. -/
theorem enter_lone {m : Nat} (ho : Online net [k, m]) (hempty : net.table k = .empty)
    (hc : Consistent net [m]) :
    ∃ net', enter transport k (net.self m).endpoint net = (.ok (), net') ∧ Confined [k, m] net net' ∧
      SoundRing net' [k, m] m ((Links.pair m k).stabilize net.point k) := by
  have hkm : k ∈ [k, m] := List.mem_cons_self ..
  have hne : k ≠ m := List.ne_of_not_mem_cons (List.nodup_cons.1 ho.distinct.nodup).1
  obtain ⟨net₂, hjoin, hconf, hring⟩ := join_lone ho hempty hc
  obtain ⟨net', henter, hconf', hring'⟩ := hring.enter_of_join hkm hjoin
  rw [hconf.point] at hring'
  exact ⟨net', henter, hconf.trans hconf',
    hring'.sound (hconf.trans hconf').toKept ((Sound.pair hne).stabilize hkm)⟩

end RingOverlay.Network
