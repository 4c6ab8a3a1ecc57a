import RingOverlay.Proofs.Network.Events
import RingOverlay.Proofs.Network.Admission

/-!
# `Network.Handover` — hand-overs are announced

A member that takes a closer predecessor hands the arc up to it over, and announces that. Whatever a
member knows and whoever asks, an answer to a request replaces a predecessor only by the sender, only by
a closer one, and only with an announcement. So the announcements of a member are a trail of predecessors
that come ever closer (`Trail`), and a member that ends with the predecessor that it started with has
announced nothing.

## Contents
- **Trails.** `reach`, `Trail`, `Trail.eq_nil`, `Trail.eq_singleton`.
- **One member.** `Heralds`, and what spares predecessors and announcements.
- **Answers.** `heralds_answerJoin`, `heralds_answerNotify`.
- **Requests.** `heralds_join_outgoing`, `heralds_notify_outgoing`.
- **Steps.** `heralds_join`, `LooseRing.heralds_stabilizeEach`, `SoundRing.heralds_enter`.
-/

namespace RingOverlay

/-- Whether an event announces a new predecessor. -/
def RingEvent.isHandover : RingEvent → Bool
  | predecessorChanged .. => true
  | _ => false

namespace Network

open RingOverlay.Ring (Links)
open RingEvent (isHandover)

/-! ## Trails -/

/-- How far clockwise a predecessor lies; an unknown one lies nowhere. -/
def reach (self : Node) : Option Node → Nat
  | none => 0
  | some p => self.id.dist p.id + 1

theorem closerPredecessor_iff {self n : Node} {p : Option Node} :
    closerPredecessor self p n = true ↔ reach self p < reach self (some n) := by
  cases p with
  | none => exact ⟨fun _ => Nat.succ_pos _, fun _ => rfl⟩
  | some p =>
    rw [closerPredecessor, reach, reach, Nat.add_lt_add_iff_right]
    exact RingId.between_iff_dist_end

/-- The announcements, the latest first, of a member that got from predecessor `p` to another through
    ever closer ones, all of them nodes of `C`. -/
inductive Trail (C : Node → Prop) (self : Node) (p : Option Node) :
    List RingEvent → Option Node → Prop
  | nil : Trail C self p [] p
  | cons {es : List RingEvent} {q : Option Node} {n : Node} : Trail C self p es q → C n →
      n.id ≠ self.id → closerPredecessor self q n = true →
      Trail C self p (.predecessorChanged q n :: es) (some n)

section Trail

variable {C C' : Node → Prop} {self n : Node} {p q r : Option Node} {es es' : List RingEvent}

theorem Trail.trans (h : Trail C self p es q) (h' : Trail C self q es' r) :
    Trail C self p (es' ++ es) r := by
  induction h' with
  | nil => exact h
  | cons _ hn hne hc ih => exact .cons ih hn hne hc

theorem Trail.mono (h : Trail C self p es q) (hC : ∀ n, C n → C' n) : Trail C' self p es q := by
  induction h with
  | nil => exact .nil
  | cons _ hn hne hc ih => exact .cons ih (hC _ hn) hne hc

theorem Trail.nil_or_lt (h : Trail C self p es q) :
    (es = [] ∧ q = p) ∨ reach self p < reach self q := by
  induction h with
  | nil => exact .inl ⟨rfl, rfl⟩
  | cons _ _ _ hc ih =>
    rw [closerPredecessor_iff] at hc
    rcases ih with ⟨-, rfl⟩ | hlt
    · exact .inr hc
    · exact .inr (Nat.lt_trans hlt hc)

/-- A trail does not come back. -/
theorem Trail.eq_nil (h : Trail C self p es p) : es = [] := by
  rcases h.nil_or_lt with ⟨rfl, -⟩ | hlt
  · rfl
  · exact absurd hlt (Nat.lt_irrefl _)

/-- A member takes no node of its own point. -/
theorem Trail.eq_nil_of_self (h : Trail C self p es q) (hC : ∀ n, C n → n.id = self.id) :
    es = [] ∧ q = p := by
  cases h with
  | nil => exact ⟨rfl, rfl⟩
  | cons _ hn hne _ => exact absurd (hC _ hn) hne

/-- Where one node only is closer, the trail to it has one step. -/
theorem Trail.eq_singleton (h : Trail C self p es (some n)) (hp : p ≠ some n)
    (hC : ∀ x, C x → x.id ≠ self.id → closerPredecessor self p x = true → x = n) :
    es = [.predecessorChanged p n] := by
  cases h with
  | nil => exact absurd rfl hp
  | @cons es q _ h _ _ hc =>
    rcases h.nil_or_lt with ⟨rfl, rfl⟩ | hlt
    · rfl
    · -- the step before would have led to `n` already
      exfalso
      cases h with
      | nil => exact absurd hlt (Nat.lt_irrefl _)
      | cons _ hx hxs _ =>
        rw [hC _ hx hxs (closerPredecessor_iff.2 hlt), closerPredecessor_iff] at hc
        exact absurd hc (Nat.lt_irrefl _)

end Trail

/-! ## One member -/

/-- The member at position `i` announced every change of its predecessor, each to a closer node of `C`. -/
structure Heralds (C : Node → Prop) (i : Nat) (net net' : Network) : Prop where
  self : net'.self i = net.self i
  trail : ∃ es, net'.told isHandover i = es ++ net.told isHandover i ∧
    Trail C (net.self i) (net.predecessor? i) es (net'.predecessor? i)

variable {C : Node → Prop} {net net' net'' : Network} {ms : List Nat} {i k : Nat} {L : Links}

theorem Heralds.of_spared (hs : net'.self i = net.self i)
    (ht : net'.told isHandover i = net.told isHandover i)
    (hp : net'.predecessor? i = net.predecessor? i) : Heralds C i net net' :=
  ⟨hs, [], ht, hp ▸ .nil⟩

theorem Heralds.of_member (h : net'.member i = net.member i) : Heralds C i net net' :=
  .of_spared (congrArg Member.self h) (congrArg (fun m => m.events.filter isHandover) h)
    (congrArg (fun m => m.table.predecessor) h)

theorem Heralds.refl (C : Node → Prop) (i : Nat) (net : Network) : Heralds C i net net :=
  .of_member rfl

theorem Heralds.trans (h : Heralds C i net net') (h' : Heralds C i net' net'') :
    Heralds C i net net'' := by
  obtain ⟨hs, es, ht, htrail⟩ := h
  obtain ⟨hs', es', ht', htrail'⟩ := h'
  rw [hs] at htrail'
  exact ⟨hs'.trans hs, es' ++ es, by rw [ht', ht, List.append_assoc], htrail.trans htrail'⟩

theorem Heralds.mono (h : Heralds C i net net') {C' : Node → Prop} (hC : ∀ n, C n → C' n) :
    Heralds C' i net net' := by
  obtain ⟨hs, es, ht, htrail⟩ := h
  exact ⟨hs, es, ht, htrail.mono hC⟩

theorem Quiet.heralds (h : Quiet net net') : Heralds C i net net' := .of_member (congrFun h.member i)

theorem predecessor?_setFinger (hk : k < net.members.length) (j : Fin 256) (n : Node) :
    (net.setFinger k j n).predecessor? = net.predecessor? := by
  funext i
  rw [predecessor?, table_setFinger hk]
  by_cases hik : i = k
  · subst hik
    rw [Function.update_self, Table.predecessor_setFinger]
    rfl
  · rw [Function.update_of_ne hik]
    rfl

theorem heralds_setFinger (hk : k < net.members.length) (j : Fin 256) (n : Node) :
    Heralds C i net (net.setFinger k j n) :=
  .of_spared (congrFun (confined_setFinger net (List.mem_singleton_self k) j n).self i)
    (congrFun (net.told_setFinger k j n) i) (congrFun (predecessor?_setFinger hk j n) i)

theorem heralds_adoptNotifier (hk : k < net.members.length) (n : Node) :
    Heralds C i net (net.adoptNotifier k n) := by
  unfold adoptNotifier
  split
  · exact .refl C i net
  · exact (quiet_note net _).heralds.trans (heralds_setFinger (by exact hk) Table.successorSlot n)

theorem heralds_moveCloser (hk : k < net.members.length) (s : Node) (c : Option Node) :
    Heralds C i net (net.moveCloser k s c) := by
  unfold moveCloser
  split
  · exact .refl C i net
  · split
    · exact (quiet_note net _).heralds.trans (heralds_setFinger (by exact hk) Table.successorSlot _)
    · exact .refl C i net

theorem heralds_announceIfReady (k : Nat) : Heralds C i net (net.announceIfReady k) := by
  refine .of_spared ?_ (congrFun (net.told_announceIfReady k fun _ _ => rfl) i) ?_
  · exact congrFun (confined_announceIfReady net (List.mem_singleton_self k)).self i
  · rw [predecessor?, table_announceIfReady]
    rfl

/-- A closer predecessor is announced. -/
theorem heralds_adoptPredecessor (hk : k < net.members.length) {n : Node} (hn : C n)
    (hne : n.id ≠ (net.self k).id)
    (hc : closerPredecessor (net.self k) (net.predecessor? k) n = true) :
    Heralds C i net (net.adoptPredecessor k n) := by
  have hconf := confined_adoptPredecessor net (List.mem_singleton_self k) n
  by_cases hik : i = k
  · subst hik
    have hold : net.predecessor? i ≠ some n := by
      intro he
      rw [he, closerPredecessor_iff] at hc
      exact absurd hc (Nat.lt_irrefl _)
    have hnew : (net.adoptPredecessor i n).predecessor? i = some n := by
      rw [predecessor?, table_adoptPredecessor hk, Function.update_self]
      rfl
    have htold : (net.adoptPredecessor i n).told isHandover i
        = [.predecessorChanged (net.predecessor? i) n] ++ net.told isHandover i := by
      unfold adoptPredecessor
      simp only
      have hlen : i < (net.setPredecessor i n).members.length :=
        (confined_setPredecessor net (List.mem_singleton_self i) n).length.symm ▸ hk
      rw [if_neg hold, told_publish hlen rfl, Function.update_self, told_setPredecessor]
      rfl
    refine ⟨congrFun hconf.self i, _, htold, ?_⟩
    rw [hnew]
    exact .cons .nil hn hne hc
  · exact .of_member (hconf.member i (fun h => hik (List.mem_singleton.1 h)))

/-! ## Answers -/

/-- A member takes a newcomer in front of itself only where it is closer than the predecessor known. -/
theorem closer_of_choose {self : Node} {p s : Option Node} {x : Node} (hx : x.id ≠ self.id)
    (h : JoinPlace.choose self p s x.id = .lone ∨ ∃ q, JoinPlace.choose self p s x.id = .behind q) :
    closerPredecessor self p x = true := by
  have hplace := choose_spec hx p s
  rcases h with h | ⟨q, h⟩
  · rw [h] at hplace
    rw [hplace.1]
    rfl
  · rw [h] at hplace
    obtain ⟨rfl, hb⟩ := hplace
    cases p with
    | none => rfl
    | some p => exact hb

theorem heralds_forwardJoin {t : Transport} {next : Node} {request : JoinRequest}
    (ht : ∀ (endpoint : String) (request' : JoinRequest) (net : Network),
      request'.requestingNode = request.requestingNode →
        Heralds C i net (t .join endpoint request' net).2) (k : Nat) (net : Network) :
    Heralds C i net (forwardJoin t k next request net).2 := by
  rcases forwardJoin_onward net k next request with ⟨fault, hf⟩ | ⟨-, n, hf⟩
  · rw [hf]
    exact .refl C i net
  · rw [hf]
    exact (quiet_note net n).heralds.trans (ht _ _ _ rfl)

/-- A member asked to take a newcomer in makes it the predecessor with an announcement, or changes no
    predecessor, or passes the request on. -/
theorem heralds_answerJoin {t : Transport} {request : JoinRequest}
    (hC : ∀ f n, Contact.required request.requestingNode f = .ok n → C n)
    (ht : ∀ (endpoint : String) (request' : JoinRequest) (net : Network),
      request'.requestingNode = request.requestingNode →
        Heralds C i net (t .join endpoint request' net).2) (hk : k < net.members.length) :
    Heralds C i net (answerJoin t k request net).2 := by
  cases hr : Contact.required request.requestingNode "requesting_node" with
  | error fault =>
    unfold answerJoin
    rw [hr]
    exact .refl C i net
  | ok x =>
    by_cases hid : x.id = (net.self k).id
    · rw [answerJoin_of_eq hr hid]
      exact .refl C i net
    rw [answerJoin_eq hr hid]
    cases hplace : JoinPlace.choose (net.self k) (net.predecessor? k) (net.peerSuccessor? k) x.id with
    | lone =>
      have hnote : k < (net.note (.joinedLone x (net.self k))).members.length := hk
      have hconf := confined_setFinger (net.note (.joinedLone x (net.self k))) (List.mem_singleton_self k)
        Table.successorSlot x
      have hpred := predecessor?_setFinger hnote Table.successorSlot x
      refine ((quiet_note net _).heralds.trans (heralds_setFinger hnote Table.successorSlot x)).trans
        (heralds_adoptPredecessor (hconf.length.symm ▸ hnote) (hC _ x hr) ?_ ?_)
      · rw [hconf.self]
        exact hid
      · rw [hconf.self, hpred]
        exact closer_of_choose hid (.inl hplace)
    | ahead s =>
      exact (quiet_note net _).heralds.trans (heralds_setFinger (by exact hk) Table.successorSlot x)
    | behind p =>
      exact (quiet_note net _).heralds.trans (heralds_adoptPredecessor (by exact hk) (hC _ x hr) hid
        (closer_of_choose hid (.inr ⟨p, hplace⟩)))
    | elsewhere s => exact (quiet_note net _).heralds.trans (heralds_forwardJoin ht k _)

theorem heralds_answerNotify {request : NotifyRequest}
    (hC : ∀ f n, Contact.required request.requestingNode f = .ok n → C n)
    (hk : k < net.members.length) : Heralds C i net (answerNotify k request net).2 := by
  cases hr : Contact.required request.requestingNode "requesting_node" with
  | error fault =>
    unfold answerNotify
    rw [hr]
    exact .refl C i net
  | ok x =>
    by_cases hid : x.id = (net.self k).id
    · rw [answerNotify_of_eq hr hid]
      exact .refl C i net
    rw [answerNotify_eq hr hid]
    have hadopt : Heralds C i net (if closerPredecessor (net.self k) (net.predecessor? k) x
        then net.adoptPredecessor k x else net) := by
      split
      · next hc => exact heralds_adoptPredecessor hk (hC _ x hr) hid hc
      · exact .refl C i net
    have hlen : k < (if closerPredecessor (net.self k) (net.predecessor? k) x
        then net.adoptPredecessor k x else net).members.length := by
      split
      · exact (confined_adoptPredecessor net (List.mem_singleton_self k) x).length.symm ▸ hk
      · exact hk
    exact hadopt.trans (heralds_adoptNotifier hlen x)

/-! ## Requests -/

/-- What comes of a request is what the member that answers makes of it. -/
theorem heralds_outgoing_succ {d : Nat} {m : Method} {request : m.Request}
    (ha : ∀ k (net : Network), k < net.members.length →
      Heralds C i net (answer (outgoing relay d) k m request net).2) (endpoint : String)
    (net : Network) : Heralds C i net (outgoing relay (d + 1) m endpoint request net).2 := by
  refine (quiet_ask net m endpoint request).heralds.trans ?_
  show Heralds C i _ (scripted (dispatch (outgoing relay d)) m endpoint request
    (net.ask m endpoint request)).2
  unfold scripted
  split
  · exact .of_member rfl
  · unfold dispatch
    split
    · exact .refl C i _
    · next k hk =>
      have hanswer := ha k _ (lt_length_of_find? hk)
      split
      · next he =>
        rw [he] at hanswer
        exact hanswer
      · next he =>
        rw [he] at hanswer
        exact hanswer

theorem heralds_join_outgoing (d : Nat) (endpoint : String) {request : JoinRequest}
    (hC : ∀ f n, Contact.required request.requestingNode f = .ok n → C n) (net : Network) :
    Heralds C i net (outgoing relay d .join endpoint request net).2 := by
  -- induction on the depth: a request that is passed on names the same newcomer
  induction d generalizing endpoint request net with
  | zero => exact .refl C i net
  | succ d ih =>
    exact heralds_outgoing_succ (fun k net hk => heralds_answerJoin hC
      (fun endpoint request' net he => ih endpoint (he ▸ hC) net) hk) endpoint net

theorem heralds_notify_outgoing (d : Nat) (endpoint : String) (request : NotifyRequest)
    (hC : ∀ f n, Contact.required request.requestingNode f = .ok n → C n) (net : Network) :
    Heralds C i net (outgoing relay d .notify endpoint request net).2 := by
  cases d with
  | zero => exact .refl C i net
  | succ d =>
    exact heralds_outgoing_succ (fun k net hk => heralds_answerNotify hC hk) endpoint net

/-! ## Steps -/

/-- A request of the member at `k` names this member and nobody else. -/
theorem required_contact_eq (h : (net.self k).endpoint ≠ "") {f : String} {n : Node}
    (hr : Contact.required (some (net.self k).contact) f = .ok n) : n = net.self k := by
  rw [Contact.required_contact h, Except.ok.injEq] at hr
  exact hr.symm

theorem heralds_notify (h : (net.self k).endpoint ≠ "") :
    Heralds (· = net.self k) i net (notify transport k net).2 := by
  unfold notify
  split
  · exact .refl _ i net
  · next s hs =>
    have ht := heralds_notify_outgoing (i := i) net.callDepth s.endpoint ⟨some (net.self k).contact⟩
      (fun _ _ => required_contact_eq h) net
    simp only [transport]
    split
    · next he =>
      rw [he] at ht
      exact ht
    · next he =>
      rw [he] at ht
      exact ht

/-- While its round succeeds a member is the only one that others take as predecessor. -/
theorem LooseRing.heralds_stabilizeRound (h : LooseRing net ms L) (hk : k ∈ ms) :
    Heralds (· = net.self k) i net (Network.stabilizeRound transport k net) := by
  obtain ⟨net₁, hq, hnotify⟩ := h.stabilize_eq_notify hk
  obtain ⟨net', hstab, -⟩ := h.stabilize hk
  have hlen : k < net₁.members.length := hq.kept.length.symm ▸ h.online.lt_length hk
  have hconf := (h.of_quiet hq).moveCloser hk (h.loose.pred _ (h.loose.succ k hk).1).1
  have hself := hconf.1.self.trans hq.kept.self
  have hn := heralds_notify (i := i) (k := k) (hself.symm ▸ h.online.address k hk)
  rw [hstab] at hnotify
  rw [← hnotify, hself] at hn
  rw [stabilizeRound_eq (h.peerSuccessor?_eq hk) hstab]
  exact ((hq.heralds.trans (heralds_moveCloser hlen _ _)).trans hn).trans (heralds_announceIfReady k)

/-- Rounds of members make members take members. -/
theorem LooseRing.heralds_stabilizeEach (h : LooseRing net ms L) {order : List Nat}
    (hm : order ⊆ ms) :
    Heralds (fun n => ∃ k ∈ ms, n = net.self k) i net (Network.stabilizeEach order net) := by
  induction order generalizing net L with
  | nil => exact .refl _ i net
  | cons k order ih =>
    obtain ⟨hk, hm⟩ := List.cons_subset.1 hm
    obtain ⟨hconf, hring⟩ := h.stabilizeRound hk
    have hrest := ih hring hm
    rw [hconf.self] at hrest
    exact ((h.heralds_stabilizeRound hk).mono fun n hn => ⟨k, hk, hn⟩).trans hrest

theorem confined_learnPredecessor (net : Network) (k : Nat) (told : Option Node) :
    Confined [k] net (net.learnPredecessor k told) := by
  unfold learnPredecessor
  split
  · exact .refl [k] net
  · split
    · exact confined_setPredecessor net (List.mem_singleton_self k) _
    · exact .refl [k] net

/-- What a newcomer makes of the answer concerns itself only, and it announces nothing. -/
theorem join_confined {t : Transport} {through : String} {p : RingEvent → Bool}
    {reply : Except TransportFault JoinResponse}
    (ht : t .join through { requestingNode := some (net.self k).contact }
      (net.note (.joining (net.self k) through)) = (reply, net')) :
    Confined [k] net' (join t k through net).2 ∧ (join t k through net).2.told p = net'.told p := by
  have hk : k ∈ [k] := List.mem_singleton_self k
  unfold join
  simp only
  rw [ht]
  cases reply with
  | error fault => exact ⟨.refl [k] net', rfl⟩
  | ok reply =>
    simp only
    split
    · exact ⟨.refl [k] net', rfl⟩
    · next s _ =>
      have hset : Confined [k] net' (if s = net.self k then net'
          else net'.setFinger k Table.successorSlot s) ∧
          (if s = net.self k then net' else net'.setFinger k Table.successorSlot s).told p
            = net'.told p := by
        split
        · exact ⟨.refl [k] net', rfl⟩
        · exact ⟨confined_setFinger net' hk _ _, net'.told_setFinger ..⟩
      split
      · exact hset
      · next q _ =>
        refine ⟨(hset.1.trans (confined_learnPredecessor _ k q)).trans (confined_note _ _), ?_⟩
        rw [told_note, told_learnPredecessor, hset.2]

/-- A newcomer that asks for a place is the only one that members take as predecessor. It takes its own
    without an announcement. -/
theorem heralds_join (h : (net.self k).endpoint ≠ "") (through : String) :
    (i ≠ k → Heralds (· = net.self k) i net (join transport k through net).2) ∧
      (join transport k through net).2.told isHandover k = net.told isHandover k := by
  have hnote := quiet_note net (.joining (net.self k) through)
  have hrequest : ∀ i, Heralds (· = net.self k) i net (transport .join through
      { requestingNode := some (net.self k).contact } (net.note (.joining (net.self k) through))).2 :=
    fun i => hnote.heralds.trans
      (heralds_join_outgoing _ through (fun _ _ => required_contact_eq h) _)
  cases ht : transport .join through { requestingNode := some (net.self k).contact }
    (net.note (.joining (net.self k) through)) with
  | mk reply net₁ =>
    simp only [ht] at hrequest
    obtain ⟨hconf, htold⟩ := join_confined (p := isHandover) ht
    constructor
    · intro hik
      exact (hrequest i).trans (.of_member (hconf.member i fun hi => hik (List.mem_singleton.1 hi)))
    · obtain ⟨-, es, htold', htrail⟩ := hrequest k
      rw [htold, htold', (htrail.eq_nil_of_self fun n hn => congrArg Node.id hn).1]
      rfl

/-- The same of a newcomer that enters. -/
theorem SoundRing.heralds_enter {b : Nat} {through : String} {s : Node} (h : SoundRing net' ms b L)
    (hk : k ∈ ms) (hkept : Kept net net') (hj : join transport k through net = (.ok s, net')) :
    (i ≠ k → Heralds (· = net.self k) i net (enter transport k through net).2) ∧
      (enter transport k through net).2.told isHandover k = net.told isHandover k := by
  have haddress : (net.self k).endpoint ≠ "" := hkept.self ▸ h.online.address k hk
  obtain ⟨net'', hstab, -⟩ := h.loose.stabilize hk
  have henter : (enter transport k through net).2 = Network.stabilizeRound transport k net' := by
    rw [enter, hj, stabilizeRound_eq (h.loose.peerSuccessor?_eq hk) hstab]
    simp only
    rw [hstab]
  obtain ⟨hother, hself⟩ := heralds_join (i := i) haddress through
  rw [hj] at hother hself
  have hround := h.loose.heralds_stabilizeRound (i := i) hk
  rw [hkept.self] at hround
  rw [henter]
  constructor
  · intro hik
    exact (hother hik).trans hround
  · obtain ⟨-, es, htold, htrail⟩ := h.loose.heralds_stabilizeRound (i := k) hk
    rw [htold, (htrail.eq_nil_of_self fun n hn => congrArg Node.id hn).1]
    exact hself

end Network

end RingOverlay
