import Mathlib.Logic.Relation
import RingOverlay.Proofs.Network.Acquaintance
import RingOverlay.Proofs.Network.Depth

/-!
# `Network.Hearsay` — members hear only of members

A member learns of nodes from requests, from answers and from its own table, and nodes travel as texts. On
a network on which everyone speaks of its members only, nobody comes to know anyone else: what a member
writes into its table is a node that it was told, and the write comes after a test that tells the node
apart from the member itself, be it by node, by point, or by an open arc.

`Trusty` says of a transport what the lemmas for each method say of `answer`: asked about members only, it
leaves members that know only other members, and answers with such. So each level of requests is trusty,
and so is every step of a member over them.

## Contents
- **Messages.** `Contact.Names`, `Sincere`, `Truthful`.
- **Steps.** `Vouched` results, and what each step does over a `Trusty` transport.
- **Requests.** `Trusty.relay` for one level more, and from it `trusty_transport`.
- **Runs.** `Move`; `Acquainted.move`, `knows_only_others`.
-/

namespace RingOverlay

/-! ## Messages -/

/-- A contact is absent, or cannot be read, or is that of a node of `ns`. -/
def Contact.Names (ns : List Node) (c : Option Contact) : Prop :=
  ∀ c', c = some c' → ∀ n, c'.node = .ok n → n ∈ ns

namespace Contact

variable {ns : List Node} {c : Option Contact} {n : Node}

theorem names_map {p : Option Node} (h : ∀ n, p = some n → n ∈ ns) : Names ns (p.map Node.contact) := by
  intro c hc m hm
  obtain ⟨n, hn, rfl⟩ := Option.map_eq_some_iff.1 hc
  rw [eq_of_node_contact hm]
  exact h n hn

theorem names_contact (h : n ∈ ns) : Names ns (some n.contact) := by
  refine names_map (p := some n) ?_
  rintro _ ⟨⟩
  exact h

theorem Names.required (h : Names ns c) {field : String} (hn : required c field = .ok n) : n ∈ ns := by
  cases c with
  | none => cases hn
  | some c => exact h c rfl n hn

theorem Names.optional (h : Names ns c) (hn : optional c = .ok (some n)) : n ∈ ns := by
  cases c with
  | none => cases hn
  | some c =>
    unfold Contact.optional at hn
    cases hc : c.node with
    | error fault =>
      simp only [hc] at hn
      cases hn
    | ok m =>
      simp only [hc] at hn
      cases hn
      exact h c rfl n hc

end Contact

namespace Network

variable {ns : List Node} {net net' : Network} {t : Transport} {k : Nat}

/-- A request that a member may act on speaks of a node of `ns`. -/
def Sincere (ns : List Node) : (m : Method) → m.Request → Prop
  | .join, request => Contact.Names ns request.requestingNode
  | .notify, request => Contact.Names ns request.requestingNode
  | .successor, _ | .stabilize, _ | .check, _ | .leave, _ => True

/-- An answer that a member may act on speaks of nodes of `ns`. -/
def Truthful (ns : List Node) : (m : Method) → m.Response → Prop
  | .join, response => Contact.Names ns response.successor ∧ Contact.Names ns response.predecessor
  | .successor, response => Contact.Names ns response.successor
  | .stabilize, response => Contact.Names ns response.predecessor
  | .notify, _ | .check, _ | .leave, _ => True

/-! ## Steps -/

/-- What comes of a step: members that know only one another and, where it succeeds, a result of the
    kind `Q`. -/
structure Vouched {ε α : Type} (ns : List Node) (Q : α → Prop) (p : Except ε α × Network) : Prop where
  state : Acquainted ns p.2
  result : ∀ a, p.1 = .ok a → Q a

section Vouched

variable {ε α : Type} {Q : α → Prop}

theorem Vouched.ok (h : Acquainted ns net) {a : α} (ha : Q a) :
    Vouched ns Q ((.ok a, net) : Except ε α × Network) := by
  refine ⟨h, ?_⟩
  rintro _ ⟨⟩
  exact ha

theorem Vouched.error (h : Acquainted ns net) (fault : ε) :
    Vouched ns Q ((.error fault, net) : Except ε α × Network) :=
  ⟨h, nofun⟩

end Vouched

/-- A transport over which nobody hears of a node that is no member. -/
def Trusty (ns : List Node) (t : Transport) : Prop :=
  ∀ m endpoint request net, Acquainted ns net → Sincere ns m request →
    Vouched ns (Truthful ns m) (t m endpoint request net)

section Steps

variable (ht : Trusty ns t) (h : Acquainted ns net) (hk : k < ns.length)
include ht h hk

/-! ### Finding owners -/

theorem Trusty.lookup (id : RingId) (hops : UInt32) :
    Vouched ns (· ∈ ns) (lookup t k id hops net) := by
  unfold Network.lookup
  simp only
  cases hroute : (net.member k).table.route (net.member k).self id with
  | owner n =>
    refine .ok h (Table.All.owner_of_route (t := net.table k) ?_ (h.self_mem hk) hroute)
    exact (h.known k).mono fun _ hn => hn.1
  | forward next =>
    simp only
    split
    · exact .error h _
    · have hcall := ht .successor next.endpoint
        ⟨some (net.member k).self.contact, id.decimal, hops + 1⟩ _
        (h.note (.lookupForwarded id next (hops + 1))) trivial
      generalize t .successor next.endpoint _ _ = p at hcall ⊢
      rcases p with ⟨fault | reply, net₁⟩
      · exact .error hcall.state _
      · exact ⟨hcall.state, fun n hn => (hcall.result reply rfl).required hn⟩

theorem Trusty.fixFinger (index : Nat) : Acquainted ns (fixFinger t k index net).2 := by
  unfold Network.fixFinger
  split
  · next hi =>
    have hlookup := ht.lookup h hk
      ((net.self k).id + fingerOffset (net.peerSuccessor? k).isSome ⟨index, hi⟩) 0
    simp only
    generalize Network.lookup t k _ 0 net = p at hlookup ⊢
    rcases p with ⟨fault | owner, net₁⟩
    · exact hlookup.state
    · have h₁ : Acquainted ns net₁ := hlookup.state
      simp only
      split
      · exact h₁.clearFinger hk _
      · next hne =>
        rw [h₁.self_eq h] at hne
        exact h₁.setFinger hk (hlookup.result owner rfl) hne _
  · exact h

/-! ### What a member asks of others -/

theorem Trusty.join (through : String) : Acquainted ns (join t k through net).2 := by
  have hcall := ht .join through { requestingNode := some (net.self k).contact } _
    (h.note (.joining (net.self k) through)) (Contact.names_contact (h.self_mem hk))
  unfold Network.join
  simp only
  generalize t .join through _ _ = p at hcall ⊢
  rcases p with ⟨fault | reply, net₁⟩
  · exact hcall.state
  · have h₁ : Acquainted ns net₁ := hcall.state
    obtain ⟨hsucc, hpred⟩ := hcall.result reply rfl
    simp only
    cases hs : Contact.required reply.successor "successor" with
    | error fault => exact h₁
    | ok successor =>
      have h₂ : Acquainted ns (if successor = net.self k then net₁
          else net₁.setFinger k Table.successorSlot successor) := by
        split
        · exact h₁
        · next hne =>
          rw [h₁.self_eq h] at hne
          exact h₁.setFinger hk (hsucc.required hs) hne _
      simp only
      cases hp : Contact.optional reply.predecessor with
      | error fault => exact h₂
      | ok predecessor =>
        refine (h₂.learnPredecessor hk ?_).note _
        rintro n rfl
        exact hpred.optional hp

omit hk in
theorem Trusty.forwardJoin (next : Node) {request : JoinRequest}
    (hr : Contact.Names ns request.requestingNode) :
    Vouched ns (Truthful ns .join) (forwardJoin t k next request net) := by
  unfold Network.forwardJoin
  simp only
  split
  · exact .error h _
  · have hcall := ht .join next.endpoint { request with hops := request.hops + 1 } _
      (h.note (.joinForwarded next (request.hops + 1))) hr
    generalize t .join next.endpoint _ _ = p at hcall ⊢
    rcases p with ⟨fault | reply, net₁⟩
    · exact .error hcall.state _
    · exact .ok hcall.state (hcall.result reply rfl)

theorem Trusty.notify : Acquainted ns (notify t k net).2 := by
  unfold Network.notify
  cases net.peerSuccessor? k with
  | none => exact h
  | some successor =>
    have hcall := ht .notify successor.endpoint { requestingNode := some (net.self k).contact } net h
      (Contact.names_contact (h.self_mem hk))
    simp only
    generalize t .notify successor.endpoint _ _ = p at hcall ⊢
    rcases p with ⟨fault | reply, net₁⟩ <;> exact hcall.state

theorem Trusty.stabilize : Acquainted ns (stabilize t k net).2 := by
  unfold Network.stabilize
  cases net.peerSuccessor? k with
  | none => exact h
  | some successor =>
    have hcall := ht .stabilize successor.endpoint
      { requestingNode := some (net.self k).contact } net h trivial
    simp only
    generalize t .stabilize successor.endpoint _ _ = p at hcall ⊢
    rcases p with ⟨fault | reply, net₁⟩
    · exact hcall.state.dropSuccessor hk successor fault
    · have h₁ : Acquainted ns net₁ := hcall.state
      simp only
      cases hc : Contact.optional reply.predecessor with
      | error fault => exact h₁
      | ok candidate =>
        refine ht.notify (h₁.moveCloser hk successor ?_) hk
        rintro n rfl
        exact (hcall.result reply rfl).optional hc

theorem Trusty.check : Acquainted ns (check t k net).2 := by
  unfold Network.check
  split
  · next predecessor _ _ =>
    have hcall := ht .check predecessor.endpoint { requestingNode := some (net.self k).contact } net h
      trivial
    generalize t .check predecessor.endpoint _ _ = p at hcall ⊢
    rcases p with ⟨fault | reply, net₁⟩
    · exact hcall.state.dropPredecessor hk predecessor fault
    · exact hcall.state
  · exact h

omit hk in
theorem Trusty.leave : Acquainted ns (leave t k net).2 := by
  unfold Network.leave
  simp only
  cases net.peerSuccessor? k with
  | none => exact h
  | some successor =>
    have hcall := ht .leave successor.endpoint
      ⟨some (net.self k).contact, some ((net.predecessor? k).getD (net.self k)).contact⟩ net h trivial
    simp only
    generalize t .leave successor.endpoint _ _ = p at hcall ⊢
    rcases p with ⟨fault | reply, net₁⟩
    · exact hcall.state
    · exact hcall.state.note _

/-! ### What a member answers -/

theorem Trusty.answerJoin {request : JoinRequest} (hr : Contact.Names ns request.requestingNode) :
    Vouched ns (Truthful ns .join) (answerJoin t k request net) := by
  have hself := Contact.names_contact (h.self_mem hk)
  unfold Network.answerJoin
  cases hs : Contact.required request.requestingNode "requesting_node" with
  | error fault => exact .error h fault
  | ok source =>
    simp only
    split
    · exact .error h _
    next hid =>
    have hmem := hr.required hs
    have hne : source ≠ net.self k := fun he => hid (congrArg Node.id he)
    have hspec := choose_spec hid (net.predecessor? k) (net.peerSuccessor? k)
    cases hplace : JoinPlace.choose (net.self k) (net.predecessor? k) (net.peerSuccessor? k)
        source.id with
    | lone =>
      have h₁ := (h.note (.joinedLone source (net.self k))).setFinger hk hmem hne Table.successorSlot
      refine .ok (h₁.adoptPredecessor hk hmem ?_) ⟨hself, hself⟩
      rw [h.self_eq h₁]
      exact hne
    | ahead successor =>
      refine .ok ((h.note _).setFinger hk hmem hne _) ⟨Contact.names_contact ?_, hself⟩
      rw [hplace] at hspec
      rw [hspec.1]
      exact h.successor_mem hk
    | behind predecessor =>
      refine .ok ((h.note _).adoptPredecessor hk hmem hne) ⟨hself, Contact.names_contact ?_⟩
      rw [hplace] at hspec
      rw [hspec.1]
      exact h.predecessor_mem hk
    | elsewhere next => exact ht.forwardJoin (h.note _) next hr

theorem Trusty.answerSuccessor (request : SuccessorRequest) :
    Vouched ns (Truthful ns .successor) (answerSuccessor t k request net) := by
  unfold Network.answerSuccessor
  cases RingId.ofDecimal request.id with
  | error e => exact .error h _
  | ok id =>
    simp only
    split
    · exact .ok h (Contact.names_contact (h.self_mem hk))
    · have hlookup := ht.lookup h hk id request.hops
      generalize Network.lookup t k id request.hops net = p at hlookup ⊢
      rcases p with ⟨fault | owner, net₁⟩
      · exact .error hlookup.state fault
      · exact .ok hlookup.state (Contact.names_contact (hlookup.result owner rfl))

omit ht in
theorem Acquainted.answerNotify {request : NotifyRequest}
    (hr : Contact.Names ns request.requestingNode) :
    Vouched ns (Truthful ns .notify) (answerNotify k request net) := by
  unfold Network.answerNotify
  cases hs : Contact.required request.requestingNode "requesting_node" with
  | error fault => exact .error h fault
  | ok source =>
    simp only
    split
    · exact .ok h trivial
    next hid =>
    have hmem := hr.required hs
    have hne : source ≠ net.self k := fun he => hid (congrArg Node.id he)
    have h₁ : Acquainted ns (if closerPredecessor (net.self k) (net.predecessor? k) source
        then net.adoptPredecessor k source else net) := by
      split
      · exact h.adoptPredecessor hk hmem hne
      · exact h
    refine .ok (h₁.adoptNotifier hk hmem ?_) trivial
    rw [h.self_eq h₁]
    exact hne

omit ht hk in
theorem Acquainted.answerLeave (request : LeaveRequest) :
    Vouched ns (Truthful ns .leave) (answerLeave k request net) := by
  unfold Network.answerLeave
  cases Contact.required request.requestingNode "requesting_node" with
  | error fault => exact .error h fault
  | ok node =>
    cases Contact.required request.predecessor "predecessor" with
    | error fault => exact .error h fault
    | ok predecessor => exact .ok ((h.note _).publish k _) trivial

theorem Trusty.answer {m : Method} {request : m.Request} (hr : Sincere ns m request) :
    Vouched ns (Truthful ns m) (answer t k m request net) := by
  cases m with
  | join => exact ht.answerJoin h hk hr
  | successor => exact ht.answerSuccessor h hk request
  | stabilize =>
    refine .ok h (Contact.names_map fun n hn => ?_)
    exact ((h.known k).predecessor n hn).1
  | notify => exact h.answerNotify hk hr
  | check => exact .ok h trivial
  | leave => exact h.answerLeave request

/-! ### Rounds -/

theorem Trusty.enter (through : String) : Acquainted ns (enter t k through net).2 := by
  have hjoin := ht.join h hk through
  unfold Network.enter
  generalize Network.join t k through net = p at hjoin ⊢
  rcases p with ⟨fault | successor, net₁⟩
  · exact hjoin
  · have hstabilize := ht.stabilize hjoin hk
    simp only at hstabilize ⊢
    generalize Network.stabilize t k net₁ = p at hstabilize ⊢
    rcases p with ⟨fault | _, net₂⟩
    · exact hstabilize
    · exact Acquainted.announceIfReady hstabilize k

omit ht h hk in
theorem Acquainted.reported {α : Type} {p : Except RingFault α × Network} {report : RingFault → Note}
    (hp : Acquainted ns p.2) : Acquainted ns (reported report p) := by
  rcases p with ⟨fault | _, net₁⟩
  · exact Acquainted.note hp _
  · exact hp

theorem Trusty.keepRing : Acquainted ns (keepRing t k net) :=
  (Acquainted.reported (ht.stabilize h hk)).announceIfReady k

theorem Trusty.stabilizeRound : Acquainted ns (stabilizeRound t k net) := by
  unfold Network.stabilizeRound
  split
  · exact ht.keepRing h hk
  · have h₁ := h.setAnnounced k false
    simp only
    split
    · exact ht.keepRing h₁ hk
    · next through _ =>
      have hjoin := ht.join (h₁.note (.rejoining ((net.setAnnounced k false).self k) through)) hk through
      generalize Network.join t k through _ = p at hjoin ⊢
      rcases p with ⟨fault | successor, net₁⟩
      · exact Acquainted.note hjoin _
      · exact ht.keepRing hjoin hk

theorem Trusty.checkRound : Acquainted ns (checkRound t k net) :=
  Acquainted.reported (ht.check h hk)

omit h in
theorem Trusty.fixFingers (count : Nat) {net : Network} (h : Acquainted ns net) :
    Acquainted ns (fixFingers t k count net) := by
  induction count generalizing net with
  | zero => exact h
  | succ count ih =>
    have hfix := ht.fixFinger ((h.moveCursor k).note (.fixingFinger
      (fingerOfCursor (net.member k).cursor))) hk (fingerOfCursor (net.member k).cursor)
    unfold Network.fixFingers
    simp only
    generalize Network.fixFinger t k _ _ = p at hfix ⊢
    rcases p with ⟨fault | _, net₁⟩
    · exact Acquainted.note hfix _
    · exact ih hfix

theorem Trusty.fingerRound : Acquainted ns (fingerRound t k net) :=
  ht.fixFingers hk _ h

end Steps

/-! ## Requests -/

theorem trusty_silent : Trusty ns silent := fun _ _ _ _ h _ => .error h TransportFault.timeout

/-- One level of requests more. -/
theorem Trusty.relay (ht : Trusty ns t) : Trusty ns (relay (dispatch t)) := by
  intro m endpoint request net h hr
  have hask := h.of_quiet (quiet_ask net m endpoint request)
  cases relay_travelling net m endpoint request with
  | scripted _ _ hs _ => exact absurd h.script hs
  | lost hrelay =>
    rw [hrelay]
    exact .error hask _
  | reaching l hf hrelay =>
    have hl := lt_length_of_find? hf
    rw [h.length_eq] at hl
    have hanswer := ht.answer hask hl hr
    rw [hrelay]
    generalize Network.answer t l m request _ = p at hanswer ⊢
    rcases p with ⟨fault | response, net₁⟩
    · exact .error hanswer.state _
    · exact .ok hanswer.state (hanswer.result response rfl)

theorem trusty_outgoing (d : Nat) : Trusty ns (outgoing relay d) := by
  induction d with
  | zero => exact trusty_silent
  | succ d ih => exact ih.relay

theorem trusty_transport : Trusty ns transport :=
  fun m endpoint request net => trusty_outgoing net.callDepth m endpoint request net

/-! ## Runs -/

/-- What can happen next on a network of the nodes `ns`. -/
inductive Move (ns : List Node) (net : Network) : Network → Prop where
  | bootstrapped {k : Nat} : k < ns.length → Move ns net (net.bootstrap k)
  | entered {k : Nat} (through : String) : k < ns.length → Move ns net (enter transport k through net).2
  /-- A round of maintenance. -/
  | stabilizeRound {k : Nat} : k < ns.length → Move ns net (stabilizeRound transport k net)
  | checkRound {k : Nat} : k < ns.length → Move ns net (checkRound transport k net)
  | fingerRound {k : Nat} : k < ns.length → Move ns net (fingerRound transport k net)
  /-- A single step of a member. -/
  | joined {k : Nat} (through : String) : k < ns.length → Move ns net (join transport k through net).2
  | stabilized {k : Nat} : k < ns.length → Move ns net (stabilize transport k net).2
  | notified {k : Nat} : k < ns.length → Move ns net (notify transport k net).2
  | checked {k : Nat} : k < ns.length → Move ns net (check transport k net).2
  | refreshed {k : Nat} (index : Nat) : k < ns.length →
      Move ns net (fixFinger transport k index net).2
  | lookedUp {k : Nat} (id : RingId) (hops : UInt32) : k < ns.length →
      Move ns net (lookup transport k id hops net).2
  | left {k : Nat} : k < ns.length → Move ns net (leave transport k net).2
  /-- A member answers a request in which one of the nodes speaks of itself. -/
  | asked {k : Nat} {m : Method} {request : m.Request} : k < ns.length → Sincere ns m request →
      Move ns net (answer transport k m request net).2
  /-- A member stops without a word. -/
  | dropped (k : Nat) : Move ns net (net.drop k)
  /-- A member can be reached, or cannot any more. -/
  | registered (k : Nat) : Move ns net (net.register k)
  | unregistered (endpoint : String) : Move ns net (net.unregister endpoint).2

/-- Every step leaves members that know only other members. -/
theorem Acquainted.move (h : Acquainted ns net) (hmove : Move ns net net') : Acquainted ns net' := by
  have ht : Trusty ns transport := trusty_transport
  cases hmove with
  | bootstrapped hk => exact h.bootstrap hk
  | entered through hk => exact ht.enter h hk through
  | stabilizeRound hk => exact ht.stabilizeRound h hk
  | checkRound hk => exact ht.checkRound h hk
  | fingerRound hk => exact ht.fingerRound h hk
  | joined through hk => exact ht.join h hk through
  | stabilized hk => exact ht.stabilize h hk
  | notified hk => exact ht.notify h hk
  | checked hk => exact ht.check h hk
  | refreshed index hk => exact ht.fixFinger h hk index
  | lookedUp id hops hk => exact (ht.lookup h hk id hops).state
  | left hk => exact ht.leave h
  | asked hk hr => exact (ht.answer h hk hr).state
  | dropped k => exact h.drop k
  | registered k => exact ⟨h.script, h.nodes, h.known⟩
  | unregistered endpoint => exact ⟨h.script, h.nodes, h.known⟩

theorem Acquainted.isSome_peerSuccessor? (h : Acquainted ns net) (k : Nat) :
    (net.peerSuccessor? k).isSome ↔ (net.table k).successor?.isSome := by
  cases hs : (net.table k).successor? with
  | none => rw [peerSuccessor?_of_none hs]
  | some n => rw [peerSuccessor?_of_some hs ((h.known k).finger 0 n hs).2]

/-- Where nobody knew anybody at first, every entry of every table is in every later state one of the nodes
    of the network, and another one than the member that has it. So a successor is known exactly where
    slot 0 is. -/
theorem knows_only_others {net₀ net : Network} (hscript : net₀.script = [])
    (hempty : ∀ k, net₀.table k = .empty)
    (hrun : Relation.ReflTransGen (Move net₀.nodes) net₀ net) :
    net.nodes = net₀.nodes ∧ ∀ k,
      ((net.table k).All fun n => n ∈ net.nodes ∧ n ≠ net.self k) ∧
      ((net.peerSuccessor? k).isSome ↔ (net.table k).successor?.isSome) := by
  have h : Acquainted net₀.nodes net := by
    induction hrun with
    | refl => exact ⟨hscript, rfl, fun k => hempty k ▸ Table.all_empty⟩
    | tail _ hmove ih => exact ih.move hmove
  refine ⟨h.nodes, fun k => ⟨?_, h.isSome_peerSuccessor? k⟩⟩
  rw [h.nodes]
  exact h.known k

/-- Three members that know nobody. -/
def strangers : Network where
  members :=
    [{ self := ⟨.one, "a"⟩, hopLimit := 4, joinThrough := none, fingersPerTick := 1 },
     { self := ⟨.ofNat 5, "b"⟩, hopLimit := 4, joinThrough := some "a", fingersPerTick := 1 },
     { self := ⟨.ofNat 9, "c"⟩, hopLimit := 4, joinThrough := some "a", fingersPerTick := 1 }]
  registry := [("a", 0), ("b", 1), ("c", 2)]

/-- Two members join the first one, which then stops. The second one goes on knowing others. -/
theorem knows_only_others_strangers : ∃ net,
    net = (enter transport 2 "a" (enter transport 1 "a" (strangers.bootstrap 0)).2).2.drop 0 ∧
    (net.peerSuccessor? 1).isSome ∧ (net.predecessor? 1).isSome ∧
    net.nodes = strangers.nodes ∧ ∀ k,
      ((net.table k).All fun n => n ∈ net.nodes ∧ n ≠ net.self k) ∧
      ((net.peerSuccessor? k).isSome ↔ (net.table k).successor?.isSome) := by
  have hempty : ∀ k, strangers.table k = .empty
    | 0 | 1 | 2 | _ + 3 => rfl
  refine ⟨_, rfl, by decide +kernel, by decide +kernel, knows_only_others rfl hempty ?_⟩
  exact (((Relation.ReflTransGen.single (.bootstrapped (by decide))).tail
    (.entered "a" (by decide))).tail (.entered "a" (by decide))).tail (.dropped 0)

end Network

end RingOverlay
