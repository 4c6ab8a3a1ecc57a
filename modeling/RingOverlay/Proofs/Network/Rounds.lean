import RingOverlay.Proofs.Network.Neighbours

/-!
# `Network.Rounds` — rounds of members that reach each other

Where members answer, a round is a step of their links and nothing else: a round of stabilizing takes the
tables from the links `L` to `L.stabilize`, and a round of checking changes no table. No request fails, so
no neighbour is dropped. For all that it is enough that the links lead to other members (`LooseRing`).
What the links have beyond that, `SoundRing`, is a matter of the links alone and is added at the end.

## Contents
- **The simulation.** `LooseRing`, and `LooseRing.advance` for a step that keeps the members.
- **Stabilizing.** What it comes to where the successor answers, `Online.notify_eq` and
  `Online.stabilize_eq_notify`, and where the successor knows the member, `Online.stabilize_of_known`;
  `LooseRing.moveCloser`, `LooseRing.notify`, `LooseRing.stabilize`.
- **Rounds.** `stabilizeRound_eq`, `stabilizeRound_eq_of_none`, `Online.checkRound`;
  `LooseRing.stabilizeRound`, `stabilizeEach`, `LooseRing.checkRound`.
- **Sound links.** `SoundRing` and its rounds.
- **A lone member.** `stabilizeRound_lone`, `checkRound_lone`.
-/

namespace RingOverlay.Network

open RingOverlay.Ring (Links)
open RingOverlay.Ring.Links (Sound Fits ne_inherited)

/-! ## The simulation -/

/-- The members `ms` are online, and their tables hold the links `L`, which lead to other members. -/
structure LooseRing (net : Network) (ms : List Nat) (L : Links) : Prop where
  online : Online net ms
  linked : Linked net ms ms L
  loose : Fits ms (· ≠ ·) L

variable {net net' : Network} {ms : List Nat} {b k l : Nat} {L : Links}

theorem LooseRing.peerSuccessor?_eq (h : LooseRing net ms L) (hk : k ∈ ms) :
    net.peerSuccessor? k = some (net.self (L.succ k)) := by
  obtain ⟨hm, hne⟩ := h.loose.succ k hk
  exact h.linked.peerSuccessor?_eq h.online hk hk hm hne

theorem LooseRing.predecessor?_eq (h : LooseRing net ms L) (hk : k ∈ ms) :
    net.predecessor? k = some (net.self (L.pred k)) :=
  (h.linked k hk).predecessor

/-- The members stay, and the links move on. -/
theorem LooseRing.advance (h : LooseRing net ms L) (hk : Kept net net') {L' : Links}
    (hl : Linked net' ms ms L') (hs : Fits ms (· ≠ ·) L') : LooseRing net' ms L' :=
  ⟨h.online.of_kept hk, hl, hs⟩

theorem LooseRing.of_kept (h : LooseRing net ms L) (hk : Kept net net')
    (ht : net'.table = net.table) : LooseRing net' ms L :=
  h.advance hk (h.linked.of_kept hk ht) h.loose

theorem LooseRing.of_quiet (h : LooseRing net ms L) (hq : Quiet net net') : LooseRing net' ms L :=
  h.of_kept hq.kept hq.table

/-! ## Stabilizing -/

/-- Moving closer to a member is a step of the links. -/
theorem LooseRing.moveCloser (h : LooseRing net ms L) (hk : k ∈ ms) {c : Nat} (hc : c ∈ ms) :
    Confined ms net (net.moveCloser k (net.self (L.succ k)) (some (net.self c))) ∧
      LooseRing (net.moveCloser k (net.self (L.succ k)) (some (net.self c))) ms
        (L.approach net.point k c) := by
  have hstep : Fits ms (· ≠ ·) (L.approach net.point k c) := h.loose.approach ne_inherited hk hc
  unfold Network.moveCloser
  unfold Links.approach at hstep ⊢
  by_cases hb : (net.point c).between (net.point k) (net.point (L.succ k)) = true
  · have hb' : (net.self c).id.between (net.self k).id (net.self (L.succ k)).id = true := hb
    rw [if_pos hb] at hstep ⊢
    simp only [if_pos hb']
    have hne : c ≠ k := by
      rintro rfl
      exact RingId.not_between_left _ _ hb
    have hconf := (confined_note net (.successorCloser (net.self (L.succ k)) (net.self c))).trans
      (confined_setFinger _ hk Table.successorSlot (net.self c))
    have htable := table_setFinger
      (show k < (net.note (.successorCloser (net.self (L.succ k)) (net.self c))).members.length
        from h.online.lt_length hk) Table.successorSlot (net.self c)
    exact ⟨hconf, h.advance hconf.toKept (h.linked.setSuccessor hk hc hne hconf.toKept htable) hstep⟩
  · have hb' : ¬(net.self c).id.between (net.self k).id (net.self (L.succ k)).id = true := hb
    rw [if_neg hb]
    simp only [if_neg hb']
    exact ⟨.refl ms net, h⟩

/-- Taking a member as predecessor where it is closer is a step of the links. -/
theorem LooseRing.adoptCloser (h : LooseRing net ms L) (hl : l ∈ ms) (hk : k ∈ ms) :
    Confined ms net (if closerPredecessor (net.self l) (net.predecessor? l) (net.self k)
        then net.adoptPredecessor l (net.self k) else net) ∧
      LooseRing (if closerPredecessor (net.self l) (net.predecessor? l) (net.self k)
        then net.adoptPredecessor l (net.self k) else net) ms (L.hear net.point l k) := by
  have hstep : Fits ms (· ≠ ·) (L.hear net.point l k) := h.loose.hear ne_inherited hl hk
  rw [h.predecessor?_eq hl, closerPredecessor]
  unfold Links.hear at hstep ⊢
  by_cases hb : (net.point k).between (net.point (L.pred l)) (net.point l) = true
  · have hb' : (net.self k).id.between (net.self (L.pred l)).id (net.self l).id = true := hb
    rw [if_pos hb] at hstep ⊢
    rw [if_pos hb']
    have hconf := confined_adoptPredecessor net hl (net.self k)
    have htable := table_adoptPredecessor (h.online.lt_length hl) (net.self k)
    exact ⟨hconf, h.advance hconf.toKept (h.linked.setPredecessor hl hconf.toKept htable) hstep⟩
  · have hb' : ¬(net.self k).id.between (net.self (L.pred l)).id (net.self l).id = true := hb
    rw [if_neg hb, if_neg hb']
    exact ⟨.refl ms net, h⟩

/-- A member that is told of itself does not mind. -/
theorem answerNotify_of_eq {request : NotifyRequest} {source : Node}
    (hr : Contact.required request.requestingNode "requesting_node" = .ok source)
    (he : source.id = (net.self l).id) : answerNotify l request net = (.ok {}, net) := by
  unfold answerNotify
  rw [hr]
  exact if_pos he

/-- A member takes in what another one tells it. -/
theorem answerNotify_eq {request : NotifyRequest} {source : Node}
    (hr : Contact.required request.requestingNode "requesting_node" = .ok source)
    (hne : ¬source.id = (net.self l).id) :
    answerNotify l request net
      = (.ok {}, (if closerPredecessor (net.self l) (net.predecessor? l) source
          then net.adoptPredecessor l source else net).adoptNotifier l source) := by
  unfold answerNotify
  rw [hr]
  exact if_neg hne

/-- A member with a successor takes nobody for one. -/
theorem adoptNotifier_of_some {successor : Node} (hs : net.peerSuccessor? k = some successor)
    (source : Node) : net.adoptNotifier k source = net := by
  rw [adoptNotifier, hs]
  exact if_pos rfl

/-- A member makes itself known to its successor, which takes it as predecessor where it is closer and as
    successor where it has none. -/
theorem Online.notify_eq (h : Online net ms) (hk : k ∈ ms) (hl : l ∈ ms) (hne : k ≠ l)
    (hs : net.peerSuccessor? k = some (net.self l)) : ∃ net₁, Quiet net net₁ ∧
      notify transport k net = (.ok (),
        (if closerPredecessor (net₁.self l) (net₁.predecessor? l) (net₁.self k)
          then net₁.adoptPredecessor l (net₁.self k) else net₁).adoptNotifier l (net₁.self k)) := by
  have hask := quiet_ask net .notify (net.self l).endpoint ⟨some (net.self k).contact⟩
  have hself := congrFun hask.kept.self k
  have hr := Contact.required_contact (h.address k hk) "requesting_node"
  have hid : ¬(net.self k).id = (net.self l).id :=
    fun he => hne (h.distinct.place_inj k hk l hl he)
  refine ⟨_, hask, ?_⟩
  unfold Network.notify
  rw [hs]
  simp only
  rw [transport_eq_ok (m := .notify) h hl (answerNotify_eq hr hid), hself]

theorem LooseRing.notify (h : LooseRing net ms L) (hk : k ∈ ms) :
    ∃ net', notify transport k net = (.ok (), net') ∧ Confined ms net net' ∧
      LooseRing net' ms (L.hear net.point (L.succ k) k) := by
  obtain ⟨hsm, hne⟩ := h.loose.succ k hk
  obtain ⟨net₁, hq, hnotify⟩ := h.online.notify_eq hk hsm hne (h.peerSuccessor?_eq hk)
  obtain ⟨hconf, hring⟩ := (h.of_quiet hq).adoptCloser hsm hk
  refine ⟨_, ?_, hq.confined.trans hconf, hq.kept.point ▸ hring⟩
  rw [hnotify, adoptNotifier_of_some (hring.peerSuccessor?_eq hsm)]

/-- A member that got an answer goes on with what it was told. -/
theorem stabilize_eq {t : Transport} {successor : Node} {candidate : Option Node}
    {reply : StabilizeResponse} (hs : net.peerSuccessor? k = some successor)
    (ht : t .stabilize successor.endpoint ⟨some (net.self k).contact⟩ net = (.ok reply, net'))
    (hc : Contact.optional reply.predecessor = .ok candidate) :
    stabilize t k net = notify t k (net'.moveCloser k successor candidate) := by
  unfold stabilize
  rw [hs]
  simp only
  rw [ht]
  simp only
  rw [hc]

/-- The question of a member to its successor changes nothing, so the rest goes on as if it had not been
    asked. -/
theorem Online.stabilize_eq_notify (h : Online net ms) (hl : l ∈ ms)
    (hs : net.peerSuccessor? k = some (net.self l))
    (hp : ∀ n, net.predecessor? l = some n → n.endpoint ≠ "") :
    ∃ net₁, Quiet net net₁ ∧ stabilize transport k net = Network.notify transport k
      (net₁.moveCloser k (net₁.self l) (net₁.predecessor? l)) := by
  have hask := quiet_ask net .stabilize (net.self l).endpoint ⟨some (net.self k).contact⟩
  refine ⟨_, hask, ?_⟩
  rw [stabilize_eq hs (transport_eq_ok (m := .stabilize) h hl rfl) (Contact.optional_map hp),
    hask.kept.self]

/-- A member takes no other successor while the one that it has knows it. -/
theorem moveCloser_self (net : Network) (k : Nat) (s : Node) :
    net.moveCloser k s (some (net.self k)) = net :=
  if_neg (RingId.not_between_left _ _)

/-- A member that its successor knows as predecessor learns nothing and tells nothing new. Only where the
    successor has none itself does it take the member for one. -/
theorem Online.stabilize_of_known (h : Online net ms) (hk : k ∈ ms) (hl : l ∈ ms) (hne : k ≠ l)
    (hs : net.peerSuccessor? k = some (net.self l)) (hp : net.predecessor? l = some (net.self k)) :
    ∃ net', Quiet net net' ∧
      stabilize transport k net = (.ok (), net'.adoptNotifier l (net'.self k)) := by
  have hknown : ∀ {net'}, Quiet net net' → net'.predecessor? l = some (net'.self k) := by
    intro net' hq
    rw [predecessor?, hq.table, hq.kept.self]
    exact hp
  obtain ⟨net₁, hq₁, hstab⟩ := h.stabilize_eq_notify hl hs (by
    rw [hp]
    rintro _ ⟨⟩
    exact h.address k hk)
  have hs₁ : net₁.peerSuccessor? k = some (net₁.self l) := by
    rw [peerSuccessor?, hq₁.table, hq₁.kept.self]
    exact hs
  obtain ⟨net₂, hq₂, hnotify⟩ := (h.of_kept hq₁.kept).notify_eq hk hl hne hs₁
  have hq := hq₁.trans hq₂
  have hcloser : ¬closerPredecessor (net₂.self l) (net₂.predecessor? l) (net₂.self k) = true := by
    rw [hknown hq]
    exact RingId.not_between_left _ _
  refine ⟨net₂, hq, ?_⟩
  rw [hstab, hknown hq₁, moveCloser_self, hnotify, if_neg hcloser]

theorem LooseRing.stabilize_eq_notify (h : LooseRing net ms L) (hk : k ∈ ms) :
    ∃ net₁, Quiet net net₁ ∧ stabilize transport k net = Network.notify transport k
      (net₁.moveCloser k (net₁.self (L.succ k)) (some (net₁.self (L.pred (L.succ k))))) := by
  obtain ⟨hsm, -⟩ := h.loose.succ k hk
  have hpred := h.predecessor?_eq hsm
  obtain ⟨net₁, hq, hstab⟩ := h.online.stabilize_eq_notify hsm (h.peerSuccessor?_eq hk) (by
    rw [hpred]
    rintro _ ⟨⟩
    exact h.online.address _ (h.loose.pred _ hsm).1)
  refine ⟨net₁, hq, ?_⟩
  rw [hstab, (h.of_quiet hq).predecessor?_eq hsm]

/-- Stabilizing is a step of the links and always succeeds. -/
theorem LooseRing.stabilize (h : LooseRing net ms L) (hk : k ∈ ms) :
    ∃ net', stabilize transport k net = (.ok (), net') ∧ Confined ms net net' ∧
      LooseRing net' ms (L.stabilize net.point k) := by
  obtain ⟨hsm, -⟩ := h.loose.succ k hk
  obtain ⟨net₁, hq, hstab⟩ := h.stabilize_eq_notify hk
  obtain ⟨hconf₁, hring₁⟩ := (h.of_quiet hq).moveCloser hk (h.loose.pred _ hsm).1
  obtain ⟨net', hn, hconf, hring⟩ := hring₁.notify hk
  rw [hconf₁.point, hq.kept.point] at hring
  exact ⟨net', hstab.trans hn, (hq.confined.trans hconf₁).trans hconf, hring⟩

/-! ## Rounds -/

/-- The round of a member with a successor: it announces itself once it has stabilized. -/
theorem stabilizeRound_eq {t : Transport} {successor : Node}
    (hs : net.peerSuccessor? k = some successor) (ht : stabilize t k net = (.ok (), net')) :
    stabilizeRound t k net = net'.announceIfReady k := by
  unfold stabilizeRound
  rw [hs, keepRing, ht]
  rfl

/-- The round of a member without a successor and without an endpoint to join through again. -/
theorem stabilizeRound_eq_of_none (hs : net.peerSuccessor? k = none)
    (hj : (net.member k).joinThrough = none) :
    stabilizeRound transport k net = (net.setAnnounced k false).announceIfReady k := by
  have hkept := (confined_setAnnounced net (List.mem_singleton_self k) false).toKept
  have hs' : (net.setAnnounced k false).peerSuccessor? k = none := by
    rw [peerSuccessor?, hkept.self, table_setAnnounced]
    exact hs
  rw [stabilizeRound, hs]
  simp only [hkept.joinThrough, hj, keepRing, stabilize, hs', reported]
  rfl

/-- A round of stabilizing is a step of the links. -/
theorem LooseRing.stabilizeRound (h : LooseRing net ms L) (hk : k ∈ ms) :
    Confined ms net (stabilizeRound transport k net) ∧
      LooseRing (stabilizeRound transport k net) ms (L.stabilize net.point k) := by
  obtain ⟨net', hn, hconf, hring⟩ := h.stabilize hk
  have hready := confined_announceIfReady net' hk
  rw [stabilizeRound_eq (h.peerSuccessor?_eq hk) hn]
  constructor
  · exact hconf.trans hready
  · exact hring.of_kept hready.toKept (table_announceIfReady net' k)

/-- One round of stabilizing for each member of a list, in its order. -/
def stabilizeEach (order : List Nat) (net : Network) : Network :=
  order.foldl (fun net k => stabilizeRound transport k net) net

theorem LooseRing.stabilizeEach (h : LooseRing net ms L) {order : List Nat} (hm : order ⊆ ms) :
    Confined ms net (stabilizeEach order net) ∧
      LooseRing (stabilizeEach order net) ms (order.foldl (Links.stabilize net.point) L) := by
  induction order generalizing net L with
  | nil => exact ⟨.refl ms net, h⟩
  | cons k order ih =>
    obtain ⟨hk, hm⟩ := List.cons_subset.1 hm
    obtain ⟨hconf, hring⟩ := h.stabilizeRound hk
    obtain ⟨hconf', hring'⟩ := ih hring hm
    rw [hconf.point] at hring'
    exact ⟨hconf.trans hconf', hring'⟩

/-- A round of checking finds a predecessor alive and changes nothing. -/
theorem Online.checkRound (h : Online net ms)
    (hp : ∀ n, net.predecessor? k = some n → ∃ l ∈ ms, n = net.self l) :
    Quiet net (checkRound transport k net) := by
  unfold Network.checkRound check
  cases hpred : net.predecessor? k with
  | none =>
    cases net.peerSuccessor? k with
    | none => exact .refl net
    | some _ => exact .refl net
  | some n =>
    obtain ⟨l, hl, rfl⟩ := hp n hpred
    cases net.peerSuccessor? k with
    | none => exact .refl net
    | some _ =>
      simp only
      rw [transport_eq_ok (m := .check) h hl rfl]
      exact quiet_ask ..

theorem LooseRing.checkRound (h : LooseRing net ms L) (hk : k ∈ ms) :
    Quiet net (checkRound transport k net) := by
  apply h.online.checkRound
  rw [h.predecessor?_eq hk]
  rintro _ ⟨⟩
  exact ⟨_, (h.loose.pred k hk).1, rfl⟩

/-! ## Sound links -/

/-- The members `ms` are online, and their tables hold the links `L`, which are sound. -/
structure SoundRing (net : Network) (ms : List Nat) (b : Nat) (L : Links) : Prop where
  online : Online net ms
  linked : Linked net ms ms L
  sound : Sound net.point ms b L

theorem SoundRing.loose (h : SoundRing net ms b L) : LooseRing net ms L :=
  ⟨h.online, h.linked, h.sound.loose⟩

theorem SoundRing.predecessor?_eq (h : SoundRing net ms b L) (hk : k ∈ ms) :
    net.predecessor? k = some (net.self (L.pred k)) :=
  h.loose.predecessor?_eq hk

/-- The links have moved on, and they are sound as before. -/
theorem LooseRing.sound (h : LooseRing net' ms L) (hk : Kept net net')
    (hs : Sound net.point ms b L) : SoundRing net' ms b L :=
  ⟨h.online, h.linked, hk.point.symm ▸ hs⟩

theorem SoundRing.of_kept (h : SoundRing net ms b L) (hk : Kept net net')
    (ht : net'.table = net.table) : SoundRing net' ms b L :=
  (h.loose.of_kept hk ht).sound hk h.sound

theorem SoundRing.of_quiet (h : SoundRing net ms b L) (hq : Quiet net net') :
    SoundRing net' ms b L :=
  h.of_kept hq.kept hq.table

theorem SoundRing.stabilizeRound (h : SoundRing net ms b L) (hk : k ∈ ms) :
    Confined ms net (stabilizeRound transport k net) ∧
      SoundRing (stabilizeRound transport k net) ms b (L.stabilize net.point k) := by
  obtain ⟨hconf, hring⟩ := h.loose.stabilizeRound hk
  exact ⟨hconf, hring.sound hconf.toKept (h.sound.stabilize hk)⟩

theorem SoundRing.stabilizeEach (h : SoundRing net ms b L) {order : List Nat} (hm : order ⊆ ms) :
    Confined ms net (stabilizeEach order net) ∧
      SoundRing (stabilizeEach order net) ms b (order.foldl (Links.stabilize net.point) L) := by
  obtain ⟨hconf, hring⟩ := h.loose.stabilizeEach hm
  exact ⟨hconf, hring.sound hconf.toKept (h.sound.foldl_stabilize hm)⟩

/-- Rounds that follow one another, each of several members. -/
theorem SoundRing.foldl_stabilizeEach (h : SoundRing net ms b L) {rounds : List (List Nat)}
    (hm : ∀ order ∈ rounds, order ⊆ ms) :
    Confined ms net (rounds.foldl (fun net order => Network.stabilizeEach order net) net) ∧
      SoundRing (rounds.foldl (fun net order => Network.stabilizeEach order net) net) ms b
        (Links.afterRounds net.point rounds L) := by
  induction rounds generalizing net L with
  | nil => exact ⟨.refl ms net, h⟩
  | cons order rounds ih =>
    obtain ⟨ho, hm⟩ := List.forall_mem_cons.1 hm
    obtain ⟨hconf, hring⟩ := h.stabilizeEach ho
    obtain ⟨hconf', hring'⟩ := ih hring hm
    rw [hconf.point] at hring'
    exact ⟨hconf.trans hconf', hring'⟩

/-! ## A lone member -/

/-- A lone member has nobody to ask. -/
theorem stabilizeRound_lone (hs : (net.table k).successor? = none)
    (hj : (net.member k).joinThrough = none) :
    Kept net (stabilizeRound transport k net) ∧
      (stabilizeRound transport k net).table = net.table := by
  have hk : k ∈ [k] := List.mem_singleton_self k
  rw [stabilizeRound_eq_of_none (peerSuccessor?_of_none hs) hj, table_announceIfReady]
  constructor
  · exact (confined_setAnnounced net hk false).toKept.trans (confined_announceIfReady _ hk).toKept
  · exact table_setAnnounced net k false

/-- A member without a predecessor has nobody to check. -/
theorem checkRound_lone (hp : net.predecessor? k = none) : checkRound transport k net = net := by
  unfold checkRound check
  rw [hp]
  cases net.peerSuccessor? k with
  | none => rfl
  | some successor => rfl

end RingOverlay.Network
