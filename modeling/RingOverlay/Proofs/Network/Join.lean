import RingOverlay.Proofs.Network.Admission

/-!
# `Network.Join` — newcomers in a ring as it should be

Where every member knows its neighbours as they are, no join is refused. A member that passes the request
on does so because the newcomer lies past its successor, so fewer members are left between the member
that is asked and the newcomer. The newcomer then enters between its two neighbours, and when each old
member has run one round, in whatever order, the ring is again as it should be.

## Contents
- **Exact links.** `Consistent.soundRing`.
- **The chain.** `SoundRing.answerJoin_step_of_exact`, `SoundRing.answerJoin_exact`,
  `SoundRing.join_exact`.
- **The ring.** `join_repaired`, `enter_repaired`, `enter_consistent`.
-/

namespace RingOverlay.Network

open RingOverlay.Ring (Links next? prev? within)
open RingOverlay.Ring.Links (Sound Exact Entry)

variable {net : Network} {ms : List Nat} {b k m : Nat} {L : Links}

/-! ## Exact links -/

/-- The tables of a ring as it should be hold its exact links. -/
theorem Consistent.soundRing (h : Consistent net ms) (ho : Online net ms)
    (he : Exact net.point ms L) (hb : b ∈ ms) : SoundRing net ms b L := by
  constructor
  · exact ho
  · intro k hk
    constructor
    · rw [h.successor k hk, (he k hk).1, Option.map_some]
    · rw [← predecessor?, h.predecessor k hk, (he k hk).2, Option.map_some]
    · exact h.finger k hk
  · exact he.sound ho.distinct hb

/-! ## The chain -/

/-- With exact links a newcomer ahead of a member is ahead of its predecessor, too. -/
theorem between_pred_of_exact (hd : Ring.Distinct net.point ms) (he : Exact net.point ms L)
    (hk : k ∈ ms) {x : RingId} (hx : ∀ j ∈ ms, net.point j ≠ x)
    (hb : x.between (net.point k) (net.point (L.succ k)) = true) :
    x.between (net.point (L.pred k)) (net.point (L.succ k)) = true := by
  obtain ⟨hsm, hsk, -⟩ := (Ring.next?_eq_some_iff hd hk).1 (he k hk).1
  obtain ⟨hpm, hpk, hno⟩ := (Ring.prev?_eq_some_iff hd hk).1 (he k hk).2
  have hs := Ring.place_ne hd hk hsm hsk
  have hp := Ring.place_ne hd hk hpm hpk
  have hxp := hx _ hpm
  have hbetween := hno _ hsm
  rw [← RingId.val_ne_iff] at hs hp hxp
  rw [RingId.between_iff_val] at hb hbetween ⊢
  omega

/-- With exact links a member passes a request on only to a member that lies before the newcomer. -/
theorem SoundRing.answerJoin_step_of_exact (h : SoundRing net ms b L) (he : Exact net.point ms L)
    (hk : k ∈ ms) {t : Transport} {request : JoinRequest} {x : Node}
    (hr : Contact.required request.requestingNode "requesting_node" = .ok x)
    (hx : ∀ j ∈ ms, net.point j ≠ x.id) :
    (∃ reply net', answerJoin t k request net = (.ok reply, net') ∧ Taken net ms L x reply net') ∨
    (answerJoin t k request net
        = forwardJoin t k (net.self (L.succ k)) request (net.note (.joinElsewhere x (net.self k))) ∧
      (net.point (L.succ k)).between (net.point k) x.id = true) := by
  have hd := h.online.distinct
  have hne : ¬x.id = (net.self k).id := fun hid => hx k hk hid.symm
  rcases h.loose.answerJoin_step hk (t := t) hr hne with htaken | ⟨hforward, hpast⟩
  · exact .inl htaken
  · refine .inr ⟨hforward, ?_⟩
    have hno : ¬x.id.between (net.point k) (net.point (L.succ k)) = true := by
      intro hb
      exact hpast (between_pred_of_exact hd he hk hx hb) hb
    obtain ⟨hsm, hsk, -⟩ := (Ring.next?_eq_some_iff hd hk).1 (he k hk).1
    have hs := Ring.place_ne hd hk hsm hsk
    have hxk := hx k hk
    have hxs := hx _ hsm
    rw [← RingId.val_ne_iff] at hs hxk hxs
    rw [RingId.between_iff_val] at hno ⊢
    omega

/-- With exact links no request to join is refused that has hops and depth left for the members between
    here and the newcomer. -/
theorem SoundRing.answerJoin_exact (h : SoundRing net ms b L) (he : Exact net.point ms L)
    (hlim : ∀ j ∈ ms, ms.length ≤ (net.member j).hopLimit.toNat) (hk : k ∈ ms) {d : Nat}
    (request : JoinRequest) {x : Node}
    (hr : Contact.required request.requestingNode "requesting_node" = .ok x)
    (hx : ∀ j ∈ ms, net.point j ≠ x.id) (hd : within net.point ms (net.point k) x.id ≤ d)
    (hh : request.hops.toNat + within net.point ms (net.point k) x.id < ms.length) :
    ∃ reply net', answerJoin (outgoing relay d) k request net = (.ok reply, net') ∧
      Taken net ms L x reply net' := by
  -- induction on the depth: the member that is asked next has fewer members before the newcomer
  induction d generalizing net k request with
  | zero =>
    rcases h.answerJoin_step_of_exact he hk hr hx with htaken | ⟨-, hb⟩
    · exact htaken
    · have hfall := Ring.within_right_lt (h.sound.succ k hk).1 hb
      omega
  | succ d ih =>
    rcases h.answerJoin_step_of_exact he hk (t := outgoing relay (d + 1)) hr hx with
      htaken | ⟨hforward, hb⟩
    · exact htaken
    · have hsm := (h.sound.succ k hk).1
      have hfall := Ring.within_right_lt hsm hb
      have hlimit := hlim k hk
      obtain ⟨hmay, hhops⟩ : ¬(net.member k).hopLimit ≤ request.hops ∧
          (request.hops + 1).toNat = request.hops.toNat + 1 := not_limit_le (by omega)
      obtain ⟨net₁, hq, hf⟩ := forwardJoin_outgoing h.online hsm (d := d) hmay
        (.joinElsewhere x (net.self k))
      have hpoint := hq.kept.point
      obtain ⟨reply, net', ha, htaken⟩ := ih (h.of_quiet hq) (by rw [hpoint]; exact he)
        (fun j hj => by rw [hq.kept.hopLimit]; exact hlim j hj) hsm
        { request with hops := request.hops + 1 } hr
        (fun j hj => by rw [hpoint]; exact hx j hj) (by rw [hpoint]; omega)
        (by rw [hpoint]; simp only [hhops]; omega)
      refine ⟨reply, net', ?_, htaken.of_quiet hq⟩
      rw [hforward, hf, ha]
      rfl

/-- Through a member of a ring as it should be a newcomer finds its place next to some member. -/
theorem SoundRing.join_exact (h : SoundRing net ms b L) (ho : Online net (k :: ms))
    (he : Exact net.point ms L) (hlim : ∀ j ∈ ms, ms.length ≤ (net.member j).hopLimit.toNat)
    (hempty : net.table k = .empty) (hm : m ∈ ms) :
    ∃ L' s net₂, Entry net.point ms L k L' ∧
      join transport k (net.self m).endpoint net = (.ok s, net₂) ∧
      Confined (k :: ms) net net₂ ∧ LooseRing net₂ (k :: ms) L' := by
  have hkm : k ∈ k :: ms := List.mem_cons_self ..
  have hr := Contact.required_contact (ho.address k hkm) "requesting_node"
  have hx : ∀ j ∈ ms, net.point j ≠ (net.self k).id := by
    intro j hj hjk
    have hjk := ho.distinct.place_inj j (List.mem_cons_of_mem k hj) k hkm hjk
    exact (List.nodup_cons.1 ho.distinct.nodup).1 (hjk ▸ hj)
  obtain ⟨d, net₁, hdepth, hq, ht⟩ := request_join h.online hm ⟨some (net.self k).contact, 0⟩
    (.joining (net.self k) (net.self m).endpoint)
  -- the members that may be asked are fewer than the hops and the depth
  have hself : within net.point ms (net.point m) (net.self k).id < ms.length :=
    Ring.within_lt_length hm (RingId.not_between_left (net.point m) (net.self k).id)
  have hlimit := hlim m hm
  have hbelow := hopLimit_lt_callDepth (h.online.lt_length hm)
  have hpoint := hq.kept.point
  obtain ⟨reply, net', ha, htaken⟩ := (h.of_quiet hq).answerJoin_exact (by rw [hpoint]; exact he)
    (fun j hj => by rw [hq.kept.hopLimit]; exact hlim j hj) hm (d := d)
    ⟨some (net.self k).contact, 0⟩ hr (fun j hj => by rw [hpoint]; exact hx j hj)
    (by rw [hpoint]; omega) (by rw [hpoint, UInt32.toNat_zero]; omega)
  rw [ha] at ht
  exact h.loose.join_of_taken ho hempty ht (htaken.of_quiet hq)

/-! ## The ring -/

/-- The links `L` with which a newcomer finds its place, and the exact links `F` that its own round and then
    the rounds of the old members lead to. The newcomer knows its neighbours after its own round. -/
theorem join_repaired (ho : Online net (k :: ms)) (hc : Consistent net ms)
    (hlim : ∀ j ∈ ms, ms.length ≤ (net.member j).hopLimit.toNat) (hempty : net.table k = .empty)
    (hm : m ∈ ms) :
    ∃ L F s net₂, (Exact net.point (k :: ms) F ∧ (L.stabilize net.point k).succ k = F.succ k ∧
        (L.stabilize net.point k).pred k = F.pred k ∧ ∀ order : List Nat, order.Perm ms →
          order.foldl (Links.stabilize net.point) (L.stabilize net.point k) = F) ∧
      join transport k (net.self m).endpoint net = (.ok s, net₂) ∧ Confined (k :: ms) net net₂ ∧
      SoundRing net₂ (k :: ms) m L := by
  by_cases hn : 2 ≤ ms.length
  · obtain ⟨L, hexact⟩ := Ring.Links.exists_exact net.point hn
    have hring := hc.soundRing (ho.sublist (List.sublist_cons_self k ms)) hexact hm
    obtain ⟨L', s, net₂, hentry, hjoin, hconf, hring'⟩ :=
      hring.join_exact ho hexact hlim hempty hm
    exact ⟨L', _, s, net₂, (hexact.entry ho.distinct hentry).choose_spec, hjoin, hconf,
      hring'.sound hconf.toKept (hring.sound.entry hentry)⟩
  · -- the only member and the newcomer know each other at once
    obtain rfl : ms = [m] := by
      rcases ms with _ | ⟨a, _ | ⟨c, ms⟩⟩
      · cases hm
      · rw [List.mem_singleton.1 hm]
      · exact absurd (Nat.le_add_left 2 ms.length) hn
    have hF := Ring.Links.exact_pair ho.distinct
    have hmutual := hF.mutual ho.distinct
    obtain ⟨net₂, hjoin, hconf, hring⟩ := join_lone ho hempty hc
    have hself : (Links.pair m k).stabilize net.point k = Links.pair m k :=
      Ring.Links.stabilize_eq_self (hmutual k (List.mem_cons_self ..))
    refine ⟨_, _, _, net₂, ⟨hF, by rw [hself], by rw [hself], ?_⟩, hjoin, hconf,
      hring.sound hconf.toKept (Sound.pair ?_)⟩
    · intro order horder
      rw [hself]
      exact hmutual.foldl_stabilize (List.subset_cons_of_subset k horder.subset)
    · exact List.ne_of_not_mem_cons (List.nodup_cons.1 ho.distinct.nodup).1

/-- The links `L₁` that a newcomer's own round leaves, and the exact links `F` that the rounds of the old
    members lead to. In `L₁` the newcomer knows its neighbours already. -/
theorem enter_repaired (ho : Online net (k :: ms)) (hc : Consistent net ms)
    (hlim : ∀ j ∈ ms, ms.length ≤ (net.member j).hopLimit.toNat) (hempty : net.table k = .empty)
    (hm : m ∈ ms) :
    ∃ L₁ F net', (Exact net.point (k :: ms) F ∧ L₁.succ k = F.succ k ∧ L₁.pred k = F.pred k ∧
        ∀ order : List Nat, order.Perm ms → order.foldl (Links.stabilize net.point) L₁ = F) ∧
      enter transport k (net.self m).endpoint net = (.ok (), net') ∧ Kept net net' ∧
      SoundRing net' (k :: ms) m L₁ := by
  have hkm : k ∈ k :: ms := List.mem_cons_self ..
  obtain ⟨L, F, s, net₂, hlinks, hjoin, hconf, hring⟩ := join_repaired ho hc hlim hempty hm
  obtain ⟨net', henter, hconf', hring'⟩ := hring.loose.enter_of_join hkm hjoin
  have hall := (hconf.trans hconf').toKept
  rw [hconf.point] at hring'
  have hsound := hring.sound.stabilize hkm
  rw [hconf.point] at hsound
  exact ⟨_, F, net', hlinks, henter, hall, hring'.sound hall hsound⟩

/-- A newcomer enters a ring as it should be through any member. It knows its neighbours then, and once
    every old member has run a round of stabilizing, the ring is as it should be with the newcomer. -/
theorem enter_consistent (ho : Online net (k :: ms)) (hc : Consistent net ms)
    (hlim : ∀ j ∈ ms, ms.length ≤ (net.member j).hopLimit.toNat) (hempty : net.table k = .empty)
    (hm : m ∈ ms) :
    ∃ net', enter transport k (net.self m).endpoint net = (.ok (), net') ∧ Kept net net' ∧
      (net'.table k).successor? = (next? net.point (k :: ms) k).map net.self ∧
      net'.predecessor? k = (prev? net.point (k :: ms) k).map net.self ∧
      ∀ order : List Nat, order.Perm ms → Consistent (stabilizeEach order net') (k :: ms) := by
  have hkm : k ∈ k :: ms := List.mem_cons_self ..
  obtain ⟨L₁, F, net', ⟨hexact, hsucc, hpred, hrounds⟩, henter, hkept, hring⟩ :=
    enter_repaired ho hc hlim hempty hm
  refine ⟨net', henter, hkept, ?_, ?_, ?_⟩
  · rw [(hring.linked k hkm).successor, (hexact k hkm).1, Option.map_some, hsucc, hkept.self]
  · rw [hring.predecessor?_eq hkm, (hexact k hkm).2, Option.map_some, hpred, hkept.self]
  · intro order horder
    obtain ⟨hkept', hring'⟩ := hring.stabilizeEach (List.subset_cons_of_subset k horder.subset)
    rw [hkept.point, hrounds order horder] at hring'
    apply hring'.linked.consistent
    rw [hkept'.point, hkept.point]
    exact hexact

/-- The fourth node of the instance enters through the third. -/
theorem enter_consistent_trio :
    ∃ net', enter transport 3 (trio.self 2).endpoint trio = (.ok (), net') ∧ Kept trio net' ∧
      (net'.table 3).successor? = (next? trio.point [3, 0, 1, 2] 3).map trio.self ∧
      net'.predecessor? 3 = (prev? trio.point [3, 0, 1, 2] 3).map trio.self ∧
      ∀ order : List Nat, order.Perm [0, 1, 2] →
        Consistent (stabilizeEach order net') [3, 0, 1, 2] :=
  enter_consistent online_trio consistent_trio (by decide) rfl (by decide)

end RingOverlay.Network
