import RingOverlay.Proofs.Network.Hearsay
import RingOverlay.Proofs.RingId.Sum
import RingOverlay.Proofs.Table.Removal

/-!
# `Network.Foothold` — the successor is the last peer to be lost

A member whose slot 0 is unknown knows nobody in any slot. A node put into a slot goes into all lower slots
that were unknown with it, slot 0 among them; where a successor is removed, slot 0 takes the nearest
entry of another point; and slot 0 is never cleared while it holds anyone, for a lookup of the next
point comes to what it holds. The invariant, `Table.Rooted`, adds that no slot holds the member itself.

Nothing is asked of answers, and nothing of what happens while a request is under way: the transport may
differ from step to step, and all that it is bound to is that what it leaves behind comes of steps, too.
Without that a member's table could be anything when an answer arrives.

## Contents
- **One table.** `Table.Rooted`, kept by each change; `Table.route_next`.
- **One member.** `Rooted`, kept by each change of a network.
- **Steps.** `Deed`; `Rooted.act` over any `Gentle` transport.
- **Runs.** `Run`, `Run.rooted`; `run_transport`; `unknown_of_successor_unknown`.
-/

namespace RingOverlay

/-! ## One table -/

namespace Table

/-- No slot holds `node`, and where slot 0 is unknown all slots are. -/
structure Rooted (node : Node) (t : Table) : Prop where
  finger_ne : ∀ i, t.finger i ≠ some node
  unknown : t.successor? = none → ∀ i, t.finger i = none

section Rooted

variable {node n : Node} {t : Table} {i : Fin 256}

theorem rooted_empty : Rooted node empty where
  finger_ne i h := by
    rw [finger_empty] at h
    cases h
  unknown _ := finger_empty

/-- What changes no slot. -/
theorem Rooted.of_finger (h : t.Rooted node) {t' : Table} (hf : t'.finger = t.finger) :
    t'.Rooted node where
  finger_ne := hf ▸ h.finger_ne
  unknown hs := by
    rw [successor?, hf] at hs
    rw [hf]
    exact h.unknown hs

theorem Rooted.setFinger (h : t.Rooted node) (hn : n ≠ node) (i : Fin 256) :
    (t.setFinger i n).Rooted node where
  finger_ne j hj := by
    rw [finger_setFinger] at hj
    split at hj
    · exact hn (Option.some_inj.1 hj)
    · exact h.finger_ne j hj
  unknown hs := by
    rw [successor?, finger_setFinger] at hs
    split at hs
    · cases hs
    · next hkept =>
      -- slot 0 and slot `i` were both unknown, so slot 0 would have taken the node, too
      have hshared : t.finger 0 = t.finger i := by rw [hs, h.unknown hs]
      rcases Nat.eq_zero_or_pos i.val with hi | hi
      · exact absurd (.inl hi.symm) hkept
      · exact absurd (.inr ⟨hi, hshared⟩) hkept

theorem Rooted.clearFinger (h : t.Rooted node) (hi : i.val = 0 → t.successor? = none) :
    (t.clearFinger i).Rooted node where
  finger_ne j hj := by
    rw [finger_clearFinger] at hj
    split at hj
    · cases hj
    · exact h.finger_ne j hj
  unknown hs j := by
    rw [successor?, finger_clearFinger] at hs
    have hnone : t.successor? = none := by
      split at hs
      · next hzero => exact hi hzero.symm
      · exact hs
    rw [finger_clearFinger, h.unknown hnone, ite_self]

theorem Rooted.remove (h : t.Rooted node) (id : RingId) : (t.remove id).Rooted node where
  finger_ne i hi := by
    obtain ⟨⟨j, hj⟩, -⟩ := finger_remove t hi
    exact h.finger_ne j hj
  unknown hs i := by
    rw [successor?, finger_remove_eq] at hs
    cases hfirst : t.successor? with
    | none => rw [finger_remove_eq, h.unknown hfirst i, Option.bind_none]
    | some n =>
      rw [show t.finger 0 = some n from hfirst, Option.bind_some, List.drop_zero,
        firstKept_eq_none_iff] at hs
      -- slot 0 would show an entry of any other point
      by_contra hi
      obtain ⟨m, hm⟩ := Option.ne_none_iff_exists'.1 hi
      obtain ⟨hknown, hne⟩ := finger_remove t hm
      have hmem := hs m ((finger_eq_some_iff_mem t m).1 hknown)
      exact hne (List.mem_singleton.1 hmem)

/-- The next point belongs to the successor, or to the member itself while it knows none. -/
theorem route_next (t : Table) (self : Node) :
    t.route self (self.id + .one) = .owner (t.successor?.getD self) := by
  have hincl : (self.id + .one).betweenIncl self.id (t.successor?.getD self).id = true := by
    by_cases hid : self.id = (t.successor?.getD self).id
    · rw [← hid]
      exact RingId.betweenIncl_self ..
    · have hpos := RingId.dist_pos_iff.2 hid
      have hone : RingId.one.val = 1 := by decide
      rw [RingId.betweenIncl_iff_dist hid, RingId.dist_add, hone]
      omega
  rw [route, Route.choose, if_pos hincl]

end Rooted

end Table

namespace Network

variable {net net' : Network} {t : Transport} {node n : Node} {j k : Nat}

/-! ## One member -/

/-- The member at position `k` has the node `node`, and its table is rooted. -/
structure Rooted (node : Node) (k : Nat) (net : Network) : Prop where
  self_eq : net.self k = node
  table : (net.table k).Rooted node

section Changes

/-- What a member tells apart from itself. -/
theorem Rooted.ne_of_ne (h : Rooted node k net) (hne : n ≠ net.self j) : j = k → n ≠ node := by
  rintro rfl rfl
  exact hne h.self_eq.symm

theorem Rooted.of_table (h : Rooted node k net) (hs : net'.self k = net.self k)
    (ht : net'.table k = net.table k) : Rooted node k net' :=
  ⟨hs.trans h.self_eq, ht ▸ h.table⟩

theorem Rooted.of_kept (h : Rooted node k net) (hk : Kept net net')
    (ht : net'.table = net.table) : Rooted node k net' :=
  h.of_table (congrFun hk.self k) (congrFun ht k)

theorem Rooted.note (h : Rooted node k net) (n : Note) : Rooted node k (net.note n) := ⟨h.self_eq, h.table⟩

/-- A change of the table of any member. -/
theorem Rooted.modifyTable (h : Rooted node k net) {f : Table → Table}
    (hf : j = k → (f (net.table k)).Rooted node) : Rooted node k (net.modifyTable j f) := by
  refine ⟨?_, ?_⟩
  · rw [(net.confined_modifyTable (List.mem_singleton_self j) f).self]
    exact h.self_eq
  · by_cases hj : j = k
    · subst hj
      by_cases hl : j < net.members.length
      · rw [table_modifyTable_self net f hl]
        exact hf rfl
      · have hout : net.modifyTable j f = net := by
          rw [Network.modifyTable, Network.update, List.modify_eq_self (Nat.not_lt.1 hl)]
        rw [hout]
        exact h.table
    · rw [table_modifyTable_of_ne net f hj]
      exact h.table

theorem Rooted.setFinger (h : Rooted node k net) (hn : j = k → n ≠ node) (i : Fin 256) :
    Rooted node k (net.setFinger j i n) := by
  unfold Network.setFinger
  split
  · exact h
  · exact (h.modifyTable fun hj => h.table.setFinger (hn hj) i).note _

theorem Rooted.clearFinger (h : Rooted node k net) {i : Fin 256}
    (hi : j = k → i.val = 0 → (net.table k).successor? = none) :
    Rooted node k (net.clearFinger j i) :=
  h.modifyTable fun hj => h.table.clearFinger (hi hj)

theorem Rooted.setPredecessor (h : Rooted node k net) (j : Nat) (n : Node) :
    Rooted node k (net.setPredecessor j n) :=
  (h.note _).modifyTable fun _ => h.table.of_finger rfl

theorem Rooted.clearPredecessor (h : Rooted node k net) (j : Nat) :
    Rooted node k (net.clearPredecessor j) :=
  h.modifyTable fun _ => h.table.of_finger rfl

theorem Rooted.remove (h : Rooted node k net) (j : Nat) (id : RingId) :
    Rooted node k (net.remove j id) :=
  (h.modifyTable fun _ => h.table.remove id).note _

theorem Rooted.bootstrap (h : Rooted node k net) (j : Nat) : Rooted node k (net.bootstrap j) := by
  have hreset : Rooted node k (net.reset j) := (h.modifyTable fun _ => Table.rooted_empty).note _
  refine Rooted.note (hreset.of_kept ?_ (table_setAnnounced _ j false)) _
  exact (confined_setAnnounced _ (List.mem_singleton_self j) false).toKept

theorem Rooted.publish (h : Rooted node k net) (j : Nat) (e : RingEvent) :
    Rooted node k (net.publish j e) :=
  h.of_kept (net.confined_publish (List.mem_singleton_self j) e).toKept (net.table_publish j e)

theorem Rooted.adoptPredecessor (h : Rooted node k net) (j : Nat) (n : Node) :
    Rooted node k (net.adoptPredecessor j n) := by
  unfold Network.adoptPredecessor
  simp only
  split
  · exact h.setPredecessor j n
  · exact (h.setPredecessor j n).publish j _

theorem Rooted.learnPredecessor (h : Rooted node k net) (j : Nat) (told : Option Node) :
    Rooted node k (net.learnPredecessor j told) := by
  unfold Network.learnPredecessor
  cases told with
  | none => exact h
  | some n =>
    simp only
    split
    · exact h.setPredecessor j n
    · exact h

theorem Rooted.moveCloser (h : Rooted node k net) (j : Nat) (successor : Node)
    (candidate : Option Node) : Rooted node k (net.moveCloser j successor candidate) := by
  unfold Network.moveCloser
  cases candidate with
  | none => exact h
  | some n =>
    simp only
    split
    · next hb =>
      refine (h.note _).setFinger (h.ne_of_ne ?_) _
      -- a node strictly between two points is not at the first of them
      rintro rfl
      exact RingId.not_between_left _ _ hb
    · exact h

theorem Rooted.dropSuccessor (h : Rooted node k net) (j : Nat) (successor : Node)
    (fault : TransportFault) : Rooted node k (net.dropSuccessor j successor fault) :=
  ((h.note _).remove j successor.id).publish j _

theorem Rooted.dropPredecessor (h : Rooted node k net) (j : Nat) (predecessor : Node)
    (fault : TransportFault) : Rooted node k (net.dropPredecessor j predecessor fault) := by
  have hnote := h.note (.predecessorFailed predecessor fault)
  unfold Network.dropPredecessor
  simp only
  split
  · exact (hnote.clearPredecessor j).publish j _
  · exact hnote.publish j _

theorem Rooted.adoptNotifier (h : Rooted node k net) (hn : j = k → n ≠ node) :
    Rooted node k (net.adoptNotifier j n) := by
  unfold Network.adoptNotifier
  split
  · exact h
  · exact (h.note _).setFinger hn _

end Changes

/-! ## Steps -/

/-- What a member does on its own account, or because it is asked. -/
inductive Deed where
  | join (through : String)
  | stabilize
  | notify
  | check
  | refresh (index : Nat)
  | lookUp (id : RingId) (hops : UInt32)
  | leave
  | answer (m : Method) (request : m.Request)

/-- What the network comes to when the member at position `j` does it. -/
def Deed.act (t : Transport) (j : Nat) (net : Network) : Deed → Network
  | .join through => (Network.join t j through net).2
  | .stabilize => (Network.stabilize t j net).2
  | .notify => (Network.notify t j net).2
  | .check => (Network.check t j net).2
  | .refresh index => (fixFinger t j index net).2
  | .lookUp id hops => (lookup t j id hops net).2
  | .leave => (Network.leave t j net).2
  | .answer m request => (Network.answer t j m request net).2

/-- A transport that leaves the member at position `k` rooted. -/
def Gentle (node : Node) (k : Nat) (t : Transport) : Prop :=
  ∀ m endpoint request net, Rooted node k net → Rooted node k (t m endpoint request net).2

section Steps

variable (ht : Gentle node k t) (h : Rooted node k net)
include ht h

theorem Rooted.lookup (j : Nat) (id : RingId) (hops : UInt32) :
    Rooted node k (lookup t j id hops net).2 := by
  rcases lookup_onward net j id hops with ⟨result, hl⟩ | ⟨-, next, sender, n, back, hl⟩
  · rw [hl]
    exact h
  · rw [hl]
    exact ht .successor next.endpoint ⟨sender, id.decimal, hops + 1⟩ _ (h.note n)

theorem Rooted.forwardJoin (j : Nat) (next : Node) (request : JoinRequest) :
    Rooted node k (forwardJoin t j next request net).2 := by
  rcases forwardJoin_onward net j next request with ⟨fault, hf⟩ | ⟨-, n, hf⟩
  · rw [hf]
    exact h
  · rw [hf]
    exact ht .join next.endpoint _ _ (h.note n)

theorem Rooted.join (j : Nat) (through : String) : Rooted node k (join t j through net).2 := by
  have hcall := ht .join through { requestingNode := some (net.self j).contact } _
    (h.note (.joining (net.self j) through))
  unfold Network.join
  simp only
  generalize t .join through _ _ = p at hcall ⊢
  rcases p with ⟨fault | reply, net₁⟩
  · exact hcall
  · simp only at hcall ⊢
    cases Contact.required reply.successor "successor" with
    | error fault => exact hcall
    | ok successor =>
      have hset : Rooted node k (if successor = net.self j then net₁
          else net₁.setFinger j Table.successorSlot successor) := by
        split
        · exact hcall
        · next hne => exact hcall.setFinger (h.ne_of_ne hne) _
      simp only
      cases Contact.optional reply.predecessor with
      | error fault => exact hset
      | ok predecessor => exact (hset.learnPredecessor j predecessor).note _

theorem Rooted.notify (j : Nat) : Rooted node k (notify t j net).2 := by
  unfold Network.notify
  cases net.peerSuccessor? j with
  | none => exact h
  | some successor =>
    have hcall := ht .notify successor.endpoint { requestingNode := some (net.self j).contact } net h
    simp only
    generalize t .notify successor.endpoint _ _ = p at hcall ⊢
    rcases p with ⟨fault | reply, net₁⟩ <;> exact hcall

theorem Rooted.stabilize (j : Nat) : Rooted node k (stabilize t j net).2 := by
  unfold Network.stabilize
  cases net.peerSuccessor? j with
  | none => exact h
  | some successor =>
    have hcall := ht .stabilize successor.endpoint { requestingNode := some (net.self j).contact } net h
    simp only
    generalize t .stabilize successor.endpoint _ _ = p at hcall ⊢
    rcases p with ⟨fault | reply, net₁⟩
    · exact hcall.dropSuccessor j successor fault
    · simp only at hcall ⊢
      cases Contact.optional reply.predecessor with
      | error fault => exact hcall
      | ok candidate => exact (hcall.moveCloser j successor candidate).notify ht j

theorem Rooted.check (j : Nat) : Rooted node k (check t j net).2 := by
  unfold Network.check
  split
  · next predecessor _ _ =>
    have hcall := ht .check predecessor.endpoint { requestingNode := some (net.self j).contact } net h
    generalize t .check predecessor.endpoint _ _ = p at hcall ⊢
    rcases p with ⟨fault | reply, net₁⟩
    · exact hcall.dropPredecessor j predecessor fault
    · exact hcall
  · exact h

theorem Rooted.leave (j : Nat) : Rooted node k (leave t j net).2 := by
  unfold Network.leave
  simp only
  cases net.peerSuccessor? j with
  | none => exact h
  | some successor =>
    have hcall := ht .leave successor.endpoint
      ⟨some (net.self j).contact, some ((net.predecessor? j).getD (net.self j)).contact⟩ net h
    simp only
    generalize t .leave successor.endpoint _ _ = p at hcall ⊢
    rcases p with ⟨fault | reply, net₁⟩
    · exact hcall
    · exact hcall.note _

/-- A slot past the first one may be cleared. For slot 0 nobody is asked, and it is cleared only where it is
    unknown already. -/
theorem Rooted.fixFinger (j index : Nat) : Rooted node k (fixFinger t j index net).2 := by
  unfold Network.fixFinger
  split
  · next hi =>
    simp only
    rcases Nat.eq_zero_or_pos index with rfl | hpos
    · have hoffset : fingerOffset (net.peerSuccessor? j).isSome ⟨0, hi⟩ = .one := if_pos (.inl rfl)
      rw [hoffset, lookup_of_owner ((net.table j).route_next (net.self j))]
      simp only
      split
      · next howner =>
        refine h.clearFinger ?_
        rintro rfl -
        cases hs : (net.table j).successor? with
        | none => rfl
        | some n =>
          rw [hs, Option.getD_some, h.self_eq] at howner
          exact absurd (howner ▸ hs) (h.table.finger_ne 0)
      · next hne => exact h.setFinger (h.ne_of_ne hne) _
    · have hlook := h.lookup ht j
        ((net.self j).id + fingerOffset (net.peerSuccessor? j).isSome ⟨index, hi⟩) 0
      generalize Network.lookup t j _ 0 net = p at hlook ⊢
      rcases p with ⟨fault | owner, net₁⟩
      · exact hlook
      · simp only at hlook ⊢
        split
        · exact hlook.clearFinger fun _ h0 => absurd h0 (Nat.ne_of_gt hpos)
        · next hne => exact hlook.setFinger (h.ne_of_ne hne) _
  · exact h

theorem Rooted.answerJoin (j : Nat) (request : JoinRequest) :
    Rooted node k (answerJoin t j request net).2 := by
  unfold Network.answerJoin
  cases Contact.required request.requestingNode "requesting_node" with
  | error fault => exact h
  | ok source =>
    simp only
    split
    · exact h
    next hid =>
    have hne := h.ne_of_ne fun he => hid (congrArg Node.id he)
    cases JoinPlace.choose (net.self j) (net.predecessor? j) (net.peerSuccessor? j) source.id with
    | lone => exact ((h.note _).setFinger hne _).adoptPredecessor j source
    | ahead successor => exact (h.note _).setFinger hne _
    | behind predecessor => exact (h.note _).adoptPredecessor j source
    | elsewhere next => exact (h.note _).forwardJoin ht j next request

omit ht in
theorem Rooted.answerNotify (j : Nat) (request : NotifyRequest) :
    Rooted node k (answerNotify j request net).2 := by
  unfold Network.answerNotify
  cases Contact.required request.requestingNode "requesting_node" with
  | error fault => exact h
  | ok source =>
    simp only
    split
    · exact h
    next hid =>
    have hne := h.ne_of_ne fun he => hid (congrArg Node.id he)
    have hadopt : Rooted node k (if closerPredecessor (net.self j) (net.predecessor? j) source
        then net.adoptPredecessor j source else net) := by
      split
      · exact h.adoptPredecessor j source
      · exact h
    exact hadopt.adoptNotifier hne

theorem Rooted.answer (j : Nat) (m : Method) (request : m.Request) :
    Rooted node k (answer t j m request net).2 := by
  cases m with
  | join => exact h.answerJoin ht j request
  | successor =>
    show Rooted node k (answerSuccessor t j request net).2
    unfold answerSuccessor
    cases RingId.ofDecimal request.id with
    | error e => exact h
    | ok id =>
      simp only
      split
      · exact h
      · have hlook := h.lookup ht j id request.hops
        generalize Network.lookup t j id request.hops net = p at hlook ⊢
        rcases p with ⟨fault | owner, net₁⟩ <;> exact hlook
  | stabilize => exact h
  | notify => exact h.answerNotify j request
  | check => exact h
  | leave =>
    show Rooted node k (answerLeave j request net).2
    unfold answerLeave
    cases Contact.required request.requestingNode "requesting_node" with
    | error fault => exact h
    | ok node =>
      cases Contact.required request.predecessor "predecessor" with
      | error fault => exact h
      | ok predecessor => exact (h.note _).publish j _

theorem Rooted.act (j : Nat) (d : Deed) : Rooted node k (d.act t j net) := by
  cases d with
  | join through => exact h.join ht j through
  | stabilize => exact h.stabilize ht j
  | notify => exact h.notify ht j
  | check => exact h.check ht j
  | refresh index => exact h.fixFinger ht j index
  | lookUp id hops => exact h.lookup ht j id hops
  | leave => exact h.leave ht j
  | answer m request => exact h.answer ht j m request

end Steps

/-! ## Runs -/

/-- What a network can come to. Members act over any transports, which bring any answers or none; what happens
    while a request is under way, and what a transport does to the network, comes of such steps, too. Only
    the member at position `k` is looked at: all else may change in any way. -/
inductive Run (k : Nat) : Network → Network → Prop where
  | refl (net : Network) : Run k net net
  | aside {net net' net'' : Network} : Run k net net' → net''.self k = net'.self k →
      net''.table k = net'.table k → Run k net net''
  | bootstrapped {net net' : Network} (j : Nat) : Run k net net' → Run k net (net'.bootstrap j)
  | acted {net net' : Network} {t : Transport} (j : Nat) (d : Deed) :
      (∀ m endpoint request net, Run k net (t m endpoint request net).2) → Run k net net' →
      Run k net (d.act t j net')

theorem Run.rooted (hrun : Run k net net') (h : Rooted node k net) : Rooted node k net' := by
  induction hrun with
  | refl => exact h
  | aside _ hs ht ih => exact (ih h).of_table hs ht
  | bootstrapped j _ ih => exact (ih h).bootstrap j
  | acted j d _ _ hgentle ih => exact (ih h).act hgentle j d

/-- The requests of members are steps of members. -/
theorem run_outgoing (d : Nat) (m : Method) (endpoint : String) (request : m.Request) (net : Network) :
    Run k net (outgoing relay d m endpoint request net).2 := by
  induction d generalizing m endpoint request net with
  | zero => exact .refl net
  | succ d ih =>
    have hask : Run k net (net.ask m endpoint request) := .aside (.refl net) rfl rfl
    show Run k net (relay (dispatch (outgoing relay d)) m endpoint request net).2
    cases relay_travelling net m endpoint request with
    | scripted result script _ hr =>
      rw [hr]
      exact .aside hask rfl rfl
    | lost hr =>
      rw [hr]
      exact hask
    | reaching j _ hr =>
      rw [hr, arrived_snd]
      exact .acted j (.answer m request) ih hask

theorem run_transport (m : Method) (endpoint : String) (request : m.Request) (net : Network) :
    Run k net (transport m endpoint request net).2 :=
  run_outgoing net.callDepth m endpoint request net

/-- Another member stops. -/
theorem Run.drop (h : Run k net net') (hj : j ≠ k) : Run k net (net'.drop j) := by
  have hmember : (net'.drop j).member k = net'.member k := member_update_of_ne net' _ hj
  exact h.aside (congrArg Member.self hmember) (congrArg Member.table hmember)

/-- What members do one after another, each over the network. -/
def actEach (deeds : List (Nat × Deed)) (net : Network) : Network :=
  deeds.foldl (fun net d => d.2.act transport d.1 net) net

theorem Run.actEach (h : Run k net net') (deeds : List (Nat × Deed)) :
    Run k net (actEach deeds net') := by
  induction deeds generalizing net' with
  | nil => exact h
  | cons d deeds ih => exact ih (.acted d.1 d.2 run_transport h)

/-- A member that knew nobody at first knows nobody whenever it knows no successor. -/
theorem unknown_of_successor_unknown {net₀ net : Network} {k : Nat} (hempty : net₀.table k = .empty)
    (hrun : Run k net₀ net) (hs : (net.table k).successor? = none) (i : Nat) :
    (net.table k).finger i = none := by
  have h₀ : Rooted (net₀.self k) k net₀ := ⟨rfl, hempty ▸ Table.rooted_empty⟩
  exact (hrun.rooted h₀).table.unknown hs i

/-- A member joins another one, which stops. Then it knows nobody any more. -/
theorem unknown_of_successor_unknown_strangers : ∃ net net',
    net = actEach [(1, .join "a")] (strangers.bootstrap 0) ∧
    (net.table 1).successor? = some ⟨.one, "a"⟩ ∧
    net' = actEach [(1, .stabilize)] (net.drop 0) ∧
    (net'.table 1).successor? = none ∧ ∀ i, (net'.table 1).finger i = none := by
  have hrun : Run 1 strangers (strangers.bootstrap 0) := .bootstrapped 0 (.refl strangers)
  have hleft := (hrun.actEach [(1, .join "a")]).drop (show 0 ≠ 1 by decide)
  have hlost : ((actEach [(1, .stabilize)] ((actEach [(1, .join "a")]
      (strangers.bootstrap 0)).drop 0)).table 1).successor? = none := by decide +kernel
  exact ⟨_, _, rfl, by decide +kernel, rfl, hlost,
    unknown_of_successor_unknown rfl (hleft.actEach [(1, .stabilize)]) hlost⟩

end Network

end RingOverlay
