import RingOverlay.Proofs.Network.Handover
import RingOverlay.Proofs.Ring.Clockwise

/-!
# `Network.Nearest` — notifications find the closest predecessor

A member that is told of nodes, one after another, ends with the one among them that is nearest on its way
clockwise to the member, or with the predecessor that it had if that one is nearer. It only ever compares
the next node with the predecessor known so far, on an arc that may pass the start of the ring; that
nevertheless acts as a minimum. With one endpoint for each point the minimum belongs to one node, so
neither the order of the notifications nor their repetition matters.

## Contents
- **The nearest.** `nearest`, `nearest_concat`, `nearest_congr`.
- **One notification.** `source?`, `predecessor?_answerNotify`.
- **Many.** `notifyEach`; `predecessor?_notifyEach` and `heralds_notifyEach`.
- **The member.** `Trail.closer`, and `predecessor_nearest`.
-/

namespace RingOverlay.Network

open RingEvent (isHandover)

variable {net : Network} {k : Nat} {self n x : Node} {heard : List Node}

/-! ## The nearest -/

/-- The node of another point that is nearest on its way clockwise to `self`, the first of these if there
    are several. -/
def nearest (self : Node) (heard : List Node) : Option Node :=
  (heard.filter (·.id ≠ self.id)).argmin fun n => n.id.dist self.id

theorem id_ne_of_nearest (h : nearest self heard = some n) : n.id ≠ self.id :=
  of_decide_eq_true (List.mem_filter.1 (List.argmin_mem h)).2

/-- A node that is heard of last counts where a member would take it for its predecessor. -/
theorem nearest_concat (self x : Node) (heard : List Node) :
    nearest self (heard ++ [x]) =
      if x.id ≠ self.id ∧ closerPredecessor self (nearest self heard) x = true then some x
      else nearest self heard := by
  by_cases hx : x.id = self.id
  · rw [if_neg fun h => h.1 hx, nearest, List.filter_append, List.filter_singleton]
    simp [nearest, hx]
  · have hsplit : nearest self (heard ++ [x])
        = ((heard.filter (·.id ≠ self.id)) ++ [x]).argmin fun n => n.id.dist self.id := by
      rw [nearest, List.filter_append, List.filter_singleton]
      simp [hx]
    rw [hsplit, List.argmin_concat]
    cases hn : nearest self heard with
    | none =>
      rw [nearest] at hn
      rw [hn, if_pos ⟨hx, rfl⟩]
    | some n =>
      have hcloser : closerPredecessor self (some n) x = true ↔
          x.id.dist self.id < n.id.dist self.id :=
        RingId.between_iff_dist_start hx (id_ne_of_nearest hn)
      rw [nearest] at hn
      rw [hn]
      simp only [hcloser, ne_eq, hx, not_false_eq_true, true_and]

/-- With one endpoint for each point only the nodes matter, not how often they are heard of and when. -/
theorem nearest_congr {heard' : List Node} (hone : ∀ m ∈ heard, ∀ n ∈ heard, m.id = n.id → m = n)
    (hsame : ∀ n, n ∈ heard' ↔ n ∈ heard) : nearest self heard' = nearest self heard := by
  have hmem : ∀ n, n ∈ heard'.filter (·.id ≠ self.id) ↔ n ∈ heard.filter (·.id ≠ self.id) := by
    intro n
    rw [List.mem_filter, List.mem_filter, hsame]
  cases hn : nearest self heard with
  | none =>
    rw [nearest, List.argmin_eq_none, List.eq_nil_iff_forall_not_mem] at hn
    rw [nearest, List.argmin_eq_none, List.eq_nil_iff_forall_not_mem]
    intro n
    rw [hmem]
    exact hn n
  | some n =>
    have hinj : ∀ a ∈ heard.filter (·.id ≠ self.id), ∀ b ∈ heard.filter (·.id ≠ self.id),
        a.id.dist self.id = b.id.dist self.id → a = b := by
      intro a ha b hb he
      exact hone a (List.mem_of_mem_filter ha) b (List.mem_of_mem_filter hb)
        (RingId.dist_left_injective he)
    rw [nearest, Ring.argmin_eq_some_iff hinj] at hn
    rw [nearest, Ring.argmin_eq_some_iff fun a ha b hb =>
      hinj a ((hmem a).1 ha) b ((hmem b).1 hb)]
    exact ⟨(hmem n).2 hn.1, fun b hb => hn.2 b ((hmem b).1 hb)⟩

/-! ## One notification -/

/-- The node that a notification names. -/
def source? (request : NotifyRequest) : Option Node :=
  (Contact.required request.requestingNode "requesting_node").toOption

theorem source?_eq_some_iff {request : NotifyRequest} :
    source? request = some n ↔ Contact.required request.requestingNode "requesting_node" = .ok n := by
  unfold source?
  cases Contact.required request.requestingNode "requesting_node" with
  | error fault => simp [Except.toOption]
  | ok m => simp [Except.toOption]

theorem answerNotify_of_none {request : NotifyRequest} (h : source? request = none) (k : Nat)
    (net : Network) : (answerNotify k request net).2 = net := by
  unfold source? at h
  unfold answerNotify
  cases hr : Contact.required request.requestingNode "requesting_node" with
  | error fault => rfl
  | ok m =>
    rw [hr] at h
    cases h

theorem confined_adoptNotifier (net : Network) (k : Nat) (n : Node) :
    Confined [k] net (net.adoptNotifier k n) := by
  unfold adoptNotifier
  split
  · exact .refl [k] net
  · exact (confined_note net _).trans (confined_setFinger _ (List.mem_singleton_self k) _ n)

theorem predecessor?_adoptNotifier (hk : k < net.members.length) (n : Node) :
    (net.adoptNotifier k n).predecessor? = net.predecessor? := by
  unfold adoptNotifier
  split
  · rfl
  · exact predecessor?_setFinger (by exact hk) Table.successorSlot n

/-- A notification changes the member that gets it, and no other. -/
theorem confined_answerNotify (net : Network) (k : Nat) (request : NotifyRequest) :
    Confined [k] net (answerNotify k request net).2 := by
  cases hx : source? request with
  | none =>
    rw [answerNotify_of_none hx]
    exact .refl [k] net
  | some x =>
    rw [source?_eq_some_iff] at hx
    by_cases hid : x.id = (net.self k).id
    · rw [answerNotify_of_eq hx hid]
      exact .refl [k] net
    · rw [answerNotify_eq hx hid]
      refine .trans ?_ (confined_adoptNotifier _ k x)
      split
      · exact confined_adoptPredecessor net (List.mem_singleton_self k) x
      · exact .refl [k] net

/-- A member takes the node that it is told of where it is closer than the predecessor known. -/
theorem predecessor?_answerNotify (hk : k < net.members.length) {request : NotifyRequest}
    (hx : source? request = some x) :
    (answerNotify k request net).2.predecessor? k =
      if x.id ≠ (net.self k).id ∧ closerPredecessor (net.self k) (net.predecessor? k) x = true
      then some x else net.predecessor? k := by
  rw [source?_eq_some_iff] at hx
  by_cases hid : x.id = (net.self k).id
  · rw [answerNotify_of_eq hx hid, if_neg fun h => h.1 hid]
  · rw [answerNotify_eq hx hid]
    by_cases hc : closerPredecessor (net.self k) (net.predecessor? k) x = true
    · have hlen := (confined_adoptPredecessor net (List.mem_singleton_self k) x).length
      simp only [if_pos hc]
      rw [predecessor?_adoptNotifier (hlen.symm ▸ hk), predecessor?, table_adoptPredecessor hk,
        Function.update_self, if_pos ⟨hid, hc⟩]
      rfl
    · simp only [if_neg hc]
      rw [predecessor?_adoptNotifier hk, if_neg]
      rintro ⟨-, h⟩
      exact hc h

/-! ## Many -/

/-- The state after a member has got notifications one after another. -/
def notifyEach (k : Nat) (requests : List NotifyRequest) (net : Network) : Network :=
  requests.foldl (fun net request => (answerNotify k request net).2) net

/-- The nodes that notifications name; those that cannot be read name none. -/
def sources (requests : List NotifyRequest) : List Node := requests.filterMap source?

/-- What a member has heard of: the predecessor that it had, and the nodes that notifications named. -/
def heardOf (net : Network) (k : Nat) (requests : List NotifyRequest) : List Node :=
  (net.predecessor? k).toList ++ sources requests

/-- A predecessor that is the nearest of the nodes heard of so far stays that. -/
theorem predecessor?_notifyEach (hk : k < net.members.length)
    (hp : net.predecessor? k = nearest (net.self k) heard) (requests : List NotifyRequest) :
    (notifyEach k requests net).predecessor? k = nearest (net.self k) (heard ++ sources requests) := by
  -- induction on the notifications: the first of them extends what was heard of
  induction requests generalizing net heard with
  | nil => rw [sources, List.filterMap_nil, List.append_nil]; exact hp
  | cons request requests ih =>
    have hconf := confined_answerNotify net k request
    cases hx : source? request with
    | none =>
      have hnet := answerNotify_of_none hx k net
      rw [notifyEach, List.foldl_cons, hnet, sources, List.filterMap_cons_none hx]
      exact ih hk hp
    | some x =>
      have hstep : (answerNotify k request net).2.predecessor? k
          = nearest ((answerNotify k request net).2.self k) (heard ++ [x]) := by
        rw [predecessor?_answerNotify hk hx, hconf.self, nearest_concat, hp]
      have hrest := ih (hconf.length.symm ▸ hk) hstep
      rw [hconf.self, List.append_assoc] at hrest
      rw [sources, List.filterMap_cons_some hx]
      exact hrest

theorem required_field {c : Option Contact} {f : String} (h : Contact.required c f = .ok n)
    (f' : String) : Contact.required c f' = .ok n := by
  cases c with
  | none => cases h
  | some c => exact h

/-- Every change on the way is announced. -/
theorem heralds_notifyEach (hk : k < net.members.length) (requests : List NotifyRequest) :
    Heralds (· ∈ sources requests) k net (notifyEach k requests net) := by
  induction requests generalizing net with
  | nil => exact .refl _ k net
  | cons request requests ih =>
    have hconf := confined_answerNotify net k request
    have hfirst : Heralds (· ∈ sources (request :: requests)) k net (answerNotify k request net).2 := by
      refine heralds_answerNotify ?_ hk
      intro f n hr
      have hx := source?_eq_some_iff.2 (required_field hr "requesting_node")
      exact List.mem_filterMap.2 ⟨request, List.mem_cons_self .., hx⟩
    refine hfirst.trans ((ih (hconf.length.symm ▸ hk)).mono ?_)
    intro n hn
    obtain ⟨r, hr, hx⟩ := List.mem_filterMap.1 hn
    exact List.mem_filterMap.2 ⟨r, List.mem_cons_of_mem request hr, hx⟩

/-! ## The member -/

section Trail

variable {C : Node → Prop} {p q : Option Node} {es : List RingEvent}

theorem Trail.id_ne (h : Trail C self p es q) (hp : ∀ n, p = some n → n.id ≠ self.id) :
    ∀ n, q = some n → n.id ≠ self.id := by
  cases h with
  | nil => exact hp
  | cons _ _ hne _ =>
    rintro _ ⟨⟩
    exact hne

/-- Each node of a trail is nearer than the one that it replaces. -/
theorem Trail.closer (h : Trail C self p es q) (hp : ∀ n, p = some n → n.id ≠ self.id) {old new : Node}
    (he : .predecessorChanged (some old) new ∈ es) : new.id.dist self.id < old.id.dist self.id := by
  induction h with
  | nil => cases he
  | @cons es q n h _ hne hc ih =>
    rcases List.mem_cons.1 he with he | he
    · obtain ⟨rfl, rfl⟩ : some old = q ∧ new = n := by simpa using he
      exact (RingId.between_iff_dist_start hne (h.id_ne hp old rfl)).1 hc
    · exact ih he

end Trail

theorem nearest_toList {p : Option Node} (hp : ∀ n, p = some n → n.id ≠ self.id) :
    nearest self p.toList = p := by
  cases p with
  | none => rfl
  | some n =>
    rw [Option.toList_some, nearest, List.filter_cons_of_pos (by simpa using hp n rfl)]
    rfl

/-- Whatever else a member knows, after any notifications its predecessor is the nearest of the nodes of
    other points among those that they named and the predecessor that it had. Other notifications of the
    same nodes, in another order or more often, lead to the same predecessor. The announcements are a trail
    from the old predecessor to the new one, each node nearer than the one that it replaced. -/
theorem predecessor_nearest {requests : List NotifyRequest} (hk : k < net.members.length)
    (hp : ∀ n, net.predecessor? k = some n → n.id ≠ (net.self k).id)
    (hone : ∀ m ∈ heardOf net k requests, ∀ n ∈ heardOf net k requests, m.id = n.id → m = n) :
    (notifyEach k requests net).predecessor? k = nearest (net.self k) (heardOf net k requests) ∧
    (∀ requests', (∀ n, n ∈ sources requests' ↔ n ∈ sources requests) →
      (notifyEach k requests' net).predecessor? k = (notifyEach k requests net).predecessor? k) ∧
    ∃ es, (notifyEach k requests net).told isHandover k = es ++ net.told isHandover k ∧
      Trail (· ∈ sources requests) (net.self k) (net.predecessor? k) es
        ((notifyEach k requests net).predecessor? k) ∧
      ∀ old new, .predecessorChanged (some old) new ∈ es →
        new.id.dist (net.self k).id < old.id.dist (net.self k).id := by
  have hrun := predecessor?_notifyEach hk (nearest_toList hp).symm
  refine ⟨hrun requests, ?_, ?_⟩
  · intro requests' hsame
    rw [hrun, hrun]
    refine nearest_congr hone ?_
    intro n
    rw [List.mem_append, List.mem_append, hsame]
  · obtain ⟨-, es, htold, htrail⟩ := heralds_notifyEach hk requests
    exact ⟨es, htold, htrail, fun old new he => htrail.closer hp he⟩

/-- Notifications for the second of three members: from the two others, one that has not joined, that
    member itself, and again the one that has not joined. -/
def gossip : List NotifyRequest := [2, 0, 3, 1, 3].map fun k => ⟨some (trio.self k).contact⟩

theorem predecessor_nearest_gossip :
    (notifyEach 1 gossip trio).predecessor? 1 = nearest (trio.self 1) (heardOf trio 1 gossip) ∧
    (∀ requests', (∀ n, n ∈ sources requests' ↔ n ∈ sources gossip) →
      (notifyEach 1 requests' trio).predecessor? 1 = (notifyEach 1 gossip trio).predecessor? 1) ∧
    ∃ es, (notifyEach 1 gossip trio).told isHandover 1 = es ++ trio.told isHandover 1 ∧
      Trail (· ∈ sources gossip) (trio.self 1) (trio.predecessor? 1) es
        ((notifyEach 1 gossip trio).predecessor? 1) ∧
      ∀ old new, .predecessorChanged (some old) new ∈ es →
        new.id.dist (trio.self 1).id < old.id.dist (trio.self 1).id := by
  have hpred : trio.predecessor? 1 = some (trio.self 0) := by decide +kernel
  refine predecessor_nearest (by decide) ?_ (by decide +kernel)
  intro n hn
  rw [hpred] at hn
  cases hn
  decide

example : nearest (trio.self 1) (heardOf trio 1 gossip) = some (trio.self 3) := by decide +kernel

end RingOverlay.Network
