import RingOverlay.Proofs.Network.Join

/-!
# `Network.Rest` — a ring that is as it should be is left in peace

Where every member knows its neighbours as they are, there is nothing to mend. A round asks and tells what
is known already, and a request that comes late, again or from afar names a member that is not closer than
the neighbours known. So no table changes, whatever the order; all that a visit may do to a member is to
let it announce, once, that it has joined.

## Contents
- **Visits.** `Visit`, what it does, and when it is `Granted`.
- **Peace.** `Heralded` for one member, `Unmoved` for all.
- **The ring.** `AtRest`, and one lemma for each kind of visit.
- **All visits.** `AtRest.foldl_act`, `undisturbed`.
-/

namespace RingOverlay.Network

open RingOverlay.Ring (Links)
open RingOverlay.Ring.Links (Exact)

/-! ## Visits -/

/-- What happens to a ring that is left to itself: rounds of its members, and requests that tell one
    member of another, be they late, repeated or from anywhere. -/
inductive Visit where
  | stabilize (k : Nat)
  | check (k : Nat)
  | notify (source target : Nat)
  deriving DecidableEq, Repr

/-- The members that a visit is of. -/
def Visit.members : Visit → List Nat
  | .stabilize k => [k]
  | .check k => [k]
  | .notify source target => [source, target]

/-- What comes of a visit. -/
def Visit.act (net : Network) : Visit → Network
  | .stabilize k => stabilizeRound transport k net
  | .check k => checkRound transport k net
  | .notify source target =>
    (direct .notify (net.self target).endpoint ⟨some (net.self source).contact⟩ net).2

/-- Every request of a visit is answered. Of the two requests of stabilizing the first one is stated, as
    its failure would be no fault; a failure of the second would be. -/
def Visit.Granted (net : Network) : Visit → Prop
  | .stabilize k => ∃ successor reply, net.peerSuccessor? k = some successor ∧
      (transport .stabilize successor.endpoint ⟨some (net.self k).contact⟩ net).1 = .ok reply ∧
      (Network.stabilize transport k net).1 = .ok ()
  | .check k => ∃ successor predecessor reply, net.peerSuccessor? k = some successor ∧
      net.predecessor? k = some predecessor ∧
      (transport .check predecessor.endpoint ⟨some (net.self k).contact⟩ net).1 = .ok reply
  | .notify source target =>
    (direct .notify (net.self target).endpoint ⟨some (net.self source).contact⟩ net).1 = .ok {}

/-! ## Peace -/

/-- A member is as it was, or it has just announced that it stands between its neighbours. -/
def Heralded (m m' : Member) : Prop :=
  m' = m ∨ m.announced = false ∧ ∃ successor predecessor, m' =
    { m with announced := true, events := .joined successor predecessor :: m.events }

/-- Nobody announces itself twice. -/
theorem Heralded.trans {m m' m'' : Member} (h : Heralded m m') (h' : Heralded m' m'') :
    Heralded m m'' := by
  obtain rfl | ⟨hm, s, p, rfl⟩ := h
  · exact h'
  · obtain rfl | ⟨hm', -⟩ := h'
    · exact .inr ⟨hm, s, p, rfl⟩
    · cases hm'

theorem Heralded.table {m m' : Member} (h : Heralded m m') : m'.table = m.table := by
  obtain rfl | ⟨-, s, p, rfl⟩ := h <;> rfl

/-- The same members on the network, and nothing but an announcement of each. -/
structure Unmoved (net net' : Network) : Prop extends Kept net net' where
  heralded : ∀ i, Heralded (net.member i) (net'.member i)

section Unmoved

variable {net net' net'' : Network}

theorem Unmoved.trans (h : Unmoved net net') (h' : Unmoved net' net'') : Unmoved net net'' :=
  ⟨h.toKept.trans h'.toKept, fun i => (h.heralded i).trans (h'.heralded i)⟩

theorem Quiet.unmoved (h : Quiet net net') : Unmoved net net' :=
  ⟨h.kept, fun i => .inl (congrFun h.member i)⟩

theorem Unmoved.table (h : Unmoved net net') : net'.table = net.table :=
  funext fun i => (h.heralded i).table

/-- A member announces itself only where it has not done so. -/
theorem unmoved_announceIfReady (net : Network) (k : Nat) : Unmoved net (net.announceIfReady k) := by
  have hconfined := net.confined_announceIfReady (List.mem_singleton_self k)
  refine ⟨hconfined.toKept, ?_⟩
  intro i
  by_cases hik : i = k
  · subst hik
    obtain hsame | ⟨s, p, -, -, -, hforgot, hmember⟩ := net.announceIfReady_cases i
    · exact .inl (by rw [hsame])
    · exact .inr ⟨hforgot, s, p, hmember⟩
  · exact .inl (hconfined.member i (mt List.mem_singleton.1 hik))

end Unmoved

/-! ## The ring -/

/-- The members `ms` are online, and their tables hold the links `L`, which are as they should be. -/
structure AtRest (net : Network) (ms : List Nat) (L : Links) : Prop where
  loose : LooseRing net ms L
  exact : Exact net.point ms L

section AtRest

variable {net net' : Network} {ms : List Nat} {L : Links} {k l source target : Nat}

theorem AtRest.unmoved (h : AtRest net ms L) (hu : Unmoved net net') : AtRest net' ms L :=
  ⟨h.loose.of_kept hu.toKept hu.table, hu.point.symm ▸ h.exact⟩

/-- Nobody lies between a member and the one before it. -/
theorem AtRest.not_closer (h : AtRest net ms L) (hs : source ∈ ms) (ht : target ∈ ms) :
    ¬closerPredecessor (net.self target) (net.predecessor? target) (net.self source) = true := by
  rw [h.loose.predecessor?_eq ht]
  exact ((Ring.prev?_eq_some_iff h.loose.online.distinct ht).1 (h.exact target ht).2).2.2 source hs

/-- To be told of another member is no news. -/
theorem AtRest.answerNotify (h : AtRest net ms L) (hs : source ∈ ms) (ht : target ∈ ms)
    {request : NotifyRequest}
    (hr : Contact.required request.requestingNode "requesting_node" = .ok (net.self source)) :
    answerNotify target request net = (.ok {}, net) := by
  by_cases hid : (net.self source).id = (net.self target).id
  · exact answerNotify_of_eq hr hid
  · rw [answerNotify_eq hr hid, if_neg (h.not_closer hs ht),
      adoptNotifier_of_some (h.loose.peerSuccessor?_eq ht)]

/-- A request from outside to a member that is online gets the answer of that member. -/
theorem Online.direct_eq_ok (h : Online net ms) (hl : l ∈ ms) {m : Method} {request : m.Request}
    {response : m.Response}
    (ha : answer (outgoing relay net.callDepth) l m request net = (.ok response, net')) :
    direct m (net.self l).endpoint request net = (.ok response, net') := by
  unfold direct dispatch
  simp only [h.answers l hl, ha]

theorem AtRest.direct_notify (h : AtRest net ms L) (hs : source ∈ ms) (ht : target ∈ ms) :
    direct .notify (net.self target).endpoint ⟨some (net.self source).contact⟩ net = (.ok {}, net) :=
  h.loose.online.direct_eq_ok (m := .notify) ht (h.answerNotify hs ht
    (Contact.required_contact (h.loose.online.address source hs) "requesting_node"))

/-- A member that stabilizes hears of itself and tells what is known. -/
theorem AtRest.stabilize (h : AtRest net ms L) (hk : k ∈ ms) :
    ∃ net', Quiet net net' ∧ stabilize transport k net = (.ok (), net') := by
  obtain ⟨hsm, hne⟩ := h.loose.loose.succ k hk
  have hknown := h.loose.predecessor?_eq hsm
  rw [h.exact.mutual h.loose.online.distinct k hk] at hknown
  obtain ⟨net', hq, hstab⟩ :=
    h.loose.online.stabilize_of_known hk hsm hne (h.loose.peerSuccessor?_eq hk) hknown
  refine ⟨net', hq, ?_⟩
  rw [hstab, adoptNotifier_of_some ((h.loose.of_quiet hq).peerSuccessor?_eq hsm)]

/-- A visit moves nobody. -/
theorem AtRest.act (h : AtRest net ms L) {v : Visit} (hv : v.members ⊆ ms) :
    Unmoved net (v.act net) := by
  cases v with
  | stabilize k =>
    have hk : k ∈ ms := hv (List.mem_singleton_self k)
    obtain ⟨net', hq, hstab⟩ := h.stabilize hk
    show Unmoved net (stabilizeRound transport k net)
    rw [stabilizeRound_eq (h.loose.peerSuccessor?_eq hk) hstab]
    exact hq.unmoved.trans (unmoved_announceIfReady net' k)
  | check k => exact (h.loose.checkRound (hv (List.mem_singleton_self k))).unmoved
  | notify source target =>
    obtain ⟨hs, ht⟩ := List.cons_subset.1 hv
    show Unmoved net (direct .notify _ _ net).2
    rw [h.direct_notify hs (ht (List.mem_singleton_self target))]
    exact (Quiet.refl net).unmoved

/-- A visit gets all its answers. -/
theorem AtRest.granted (h : AtRest net ms L) {v : Visit} (hv : v.members ⊆ ms) : v.Granted net := by
  cases v with
  | stabilize k =>
    have hk : k ∈ ms := hv (List.mem_singleton_self k)
    obtain ⟨net', -, hstab⟩ := h.stabilize hk
    have hask : transport .stabilize (net.self (L.succ k)).endpoint ⟨some (net.self k).contact⟩ net = _ :=
      transport_eq_ok (m := .stabilize) h.loose.online (h.loose.loose.succ k hk).1 rfl
    exact ⟨_, _, h.loose.peerSuccessor?_eq hk, congrArg Prod.fst hask, congrArg Prod.fst hstab⟩
  | check k =>
    have hk : k ∈ ms := hv (List.mem_singleton_self k)
    have hask : transport .check (net.self (L.pred k)).endpoint ⟨some (net.self k).contact⟩ net = _ :=
      transport_eq_ok (m := .check) h.loose.online (h.loose.loose.pred k hk).1 rfl
    exact ⟨_, _, _, h.loose.peerSuccessor?_eq hk, h.loose.predecessor?_eq hk, congrArg Prod.fst hask⟩
  | notify source target =>
    obtain ⟨hs, ht⟩ := List.cons_subset.1 hv
    exact congrArg Prod.fst (h.direct_notify hs (ht (List.mem_singleton_self target)))

/-! ## All visits -/

theorem AtRest.foldl_act (h : AtRest net ms L) {visits : List Visit}
    (hv : ∀ v ∈ visits, v.members ⊆ ms) : Unmoved net (visits.foldl Visit.act net) := by
  induction visits generalizing net with
  | nil => exact (Quiet.refl net).unmoved
  | cons v visits ih =>
    obtain ⟨hv, hvs⟩ := List.forall_mem_cons.1 hv
    have hact := h.act hv
    exact hact.trans (ih (h.unmoved hact) hvs)

end AtRest

theorem Consistent.atRest {net : Network} {ms : List Nat} (h : Consistent net ms)
    (ho : Online net ms) (hn : 2 ≤ ms.length) : ∃ L, AtRest net ms L := by
  obtain ⟨L, he⟩ := Links.exists_exact net.point hn
  have hb : ms[0] ∈ ms := List.getElem_mem (by omega)
  exact ⟨L, (h.soundRing ho he hb).loose, he⟩

/-- Whatever visits a ring as it should be has had, in whatever order, its tables are as they were, each
    member has announced at most that it has joined, and this at most once, and the next visit will get all
    its answers, too. -/
theorem undisturbed {net : Network} {ms : List Nat} (ho : Online net ms) (hc : Consistent net ms)
    (hn : 2 ≤ ms.length) {visits : List Visit} (hv : ∀ v ∈ visits, v.members ⊆ ms) :
    (visits.foldl Visit.act net).table = net.table ∧
    (∀ i, ((visits.foldl Visit.act net).member i).events = (net.member i).events ∨
      ∃ successor predecessor, ((visits.foldl Visit.act net).member i).events
        = .joined successor predecessor :: (net.member i).events) ∧
    ∀ v : Visit, v.members ⊆ ms → v.Granted (visits.foldl Visit.act net) := by
  obtain ⟨L, hrest⟩ := hc.atRest ho hn
  have hu := hrest.foldl_act hv
  refine ⟨hu.table, ?_, fun v hm => (hrest.unmoved hu).granted hm⟩
  intro i
  obtain he | ⟨-, s, p, he⟩ := hu.heralded i
  · exact .inl (congrArg Member.events he)
  · exact .inr ⟨s, p, congrArg Member.events he⟩

/-- Between rounds of three members the first one hears twice of its successor, and the last one of
    itself. -/
theorem undisturbed_trio : ∃ visits : List Visit,
    visits = [.notify 1 0, .stabilize 0, .notify 2 2, .check 1, .notify 1 0, .stabilize 0] ∧
    (∀ v ∈ visits, v.members ⊆ [0, 1, 2]) ∧
    (visits.foldl Visit.act trio).table = trio.table ∧
    (∀ i, ((visits.foldl Visit.act trio).member i).events = (trio.member i).events ∨
      ∃ successor predecessor, ((visits.foldl Visit.act trio).member i).events
        = .joined successor predecessor :: (trio.member i).events) ∧
    ∀ v : Visit, v.members ⊆ [0, 1, 2] → v.Granted (visits.foldl Visit.act trio) := by
  have hv : ∀ v ∈ [Visit.notify 1 0, .stabilize 0, .notify 2 2, .check 1, .notify 1 0, .stabilize 0],
      v.members ⊆ [0, 1, 2] := by decide
  exact ⟨_, rfl, hv, undisturbed (online_trio.sublist (List.sublist_cons_self 3 [0, 1, 2]))
    consistent_trio (by decide) hv⟩

end RingOverlay.Network
