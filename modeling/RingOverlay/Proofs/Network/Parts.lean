import RingOverlay.Proofs.Network.Depth

/-!
# `Network.Parts` — what the steps of a member are made of

A step of a member reports, changes the table of the member, announces events and sends requests, one after
another. So a relation between the network before and after holds of a step where it holds of each of
these and can be put together. Two parts are left out, for they are what some relations are about: that
the member announces to be part of the ring, and that it moves its cursor on.

## Contents
- **Relations.** `Parts`, and the changes of a network that are made of such parts.
- **Steps.** `Parts.join` and the like, over any transport of which the relation holds.
- **Rounds.** `Parts.fixFingers`, with the cursor.
- **On one network.** `outgoing_of_parts`, the requests of members.
-/

namespace RingOverlay.Network

/-- A relation that holds of the parts of which the steps of the member at `k` are made. -/
structure Parts (R : Network → Network → Prop) (k : Nat) : Prop where
  refl : ∀ net, R net net
  trans : ∀ {net net' net''}, R net net' → R net' net'' → R net net''
  note : ∀ net n, (∀ index, n ≠ .fixingFinger index) → R net (net.note n)
  table : ∀ net f, R net (net.modifyTable k f)
  publish : ∀ net e, (∀ successor predecessor, e ≠ .joined successor predecessor) →
    R net (net.publish k e)

namespace Parts

variable {R : Network → Network → Prop} {t : Transport} {k : Nat}

/-! ## Relations -/

section Changes

variable (h : Parts R k) (net : Network)
include h

theorem setFinger (i : Fin 256) (n : Node) : R net (net.setFinger k i n) := by
  unfold Network.setFinger
  split
  · exact h.refl net
  · exact h.trans (h.table net _) (h.note _ _ (by nofun))

theorem setPredecessor (n : Node) : R net (net.setPredecessor k n) :=
  h.trans (h.note net _ (by nofun)) (h.table _ _)

theorem adoptPredecessor (n : Node) : R net (net.adoptPredecessor k n) := by
  unfold Network.adoptPredecessor
  simp only
  split
  · exact h.setPredecessor net n
  · exact h.trans (h.setPredecessor net n) (h.publish _ _ (by nofun))

theorem learnPredecessor (told : Option Node) : R net (net.learnPredecessor k told) := by
  unfold Network.learnPredecessor
  cases told with
  | none => exact h.refl net
  | some n =>
    simp only
    split
    · exact h.setPredecessor net n
    · exact h.refl net

theorem moveCloser (successor : Node) (candidate : Option Node) :
    R net (net.moveCloser k successor candidate) := by
  unfold Network.moveCloser
  cases candidate with
  | none => exact h.refl net
  | some n =>
    simp only
    split
    · exact h.trans (h.note net _ (by nofun)) (h.setFinger _ _ n)
    · exact h.refl net

theorem dropSuccessor (successor : Node) (fault : TransportFault) :
    R net (net.dropSuccessor k successor fault) := by
  have hremove : R net ((net.note (.successorFailed successor fault)).remove k successor.id) :=
    h.trans (h.note net _ (by nofun)) (h.trans (h.table _ _) (h.note _ _ (by nofun)))
  exact h.trans hremove (h.publish _ _ (by nofun))

theorem dropPredecessor (predecessor : Node) (fault : TransportFault) :
    R net (net.dropPredecessor k predecessor fault) := by
  have hnote : R net (net.note (.predecessorFailed predecessor fault)) := h.note net _ (by nofun)
  unfold Network.dropPredecessor
  simp only
  split
  · exact h.trans hnote (h.trans (h.table _ _) (h.publish _ _ (by nofun)))
  · exact h.trans hnote (h.publish _ _ (by nofun))

theorem adoptNotifier (source : Node) : R net (net.adoptNotifier k source) := by
  unfold Network.adoptNotifier
  split
  · exact h.refl net
  · exact h.trans (h.note net _ (by nofun)) (h.setFinger _ _ source)

end Changes

/-! ## Steps -/

section Lookups

variable (h : Parts R k)
  (ht : ∀ endpoint request net, R net (t .successor endpoint request net).2)
include h ht

theorem lookup (id : RingId) (hops : UInt32) (net : Network) : R net (lookup t k id hops net).2 := by
  unfold Network.lookup
  simp only
  cases (net.member k).table.route (net.member k).self id with
  | owner n => exact h.refl net
  | forward next =>
    simp only
    split
    · exact h.refl net
    · have hcall := h.trans (h.note net (.lookupForwarded id next (hops + 1)) nofun)
        (ht next.endpoint ⟨some (net.member k).self.contact, id.decimal, hops + 1⟩ _)
      generalize t .successor next.endpoint _ _ = p at hcall ⊢
      rcases p with ⟨_ | _, _⟩ <;> exact hcall

theorem answerSuccessor (request : SuccessorRequest) (net : Network) :
    R net (answerSuccessor t k request net).2 := by
  unfold Network.answerSuccessor
  cases RingId.ofDecimal request.id with
  | error e => exact h.refl net
  | ok id =>
    simp only
    split
    · exact h.refl net
    · have hlook := h.lookup ht id request.hops net
      generalize Network.lookup t k id request.hops net = p at hlook ⊢
      rcases p with ⟨_ | _, _⟩ <;> exact hlook

theorem fixFinger (index : Nat) (net : Network) : R net (fixFinger t k index net).2 := by
  unfold Network.fixFinger
  split
  · next hi =>
    have hlook := h.lookup ht
      ((net.self k).id + fingerOffset (net.peerSuccessor? k).isSome ⟨index, hi⟩) 0 net
    simp only
    generalize Network.lookup t k _ 0 net = p at hlook ⊢
    rcases p with ⟨fault | owner, net₁⟩
    · exact hlook
    · simp only
      split
      · exact h.trans hlook (h.table net₁ _)
      · exact h.trans hlook (h.setFinger net₁ _ owner)
  · exact h.refl net

end Lookups

section Steps

variable (h : Parts R k) (ht : ∀ m endpoint request net, R net (t m endpoint request net).2)
include h ht

theorem join (through : String) (net : Network) : R net (join t k through net).2 := by
  have hcall := h.trans (h.note net (.joining (net.self k) through) nofun)
    (ht .join through { requestingNode := some (net.self k).contact } _)
  unfold Network.join
  simp only
  generalize t .join through _ _ = p at hcall ⊢
  rcases p with ⟨fault | reply, net₁⟩
  · exact hcall
  · simp only at hcall ⊢
    cases Contact.required reply.successor "successor" with
    | error fault => exact hcall
    | ok successor =>
      have hset : R net (if successor = net.self k then net₁
          else net₁.setFinger k Table.successorSlot successor) := by
        split
        · exact hcall
        · exact h.trans hcall (h.setFinger net₁ _ successor)
      simp only
      cases Contact.optional reply.predecessor with
      | error fault => exact hset
      | ok predecessor =>
        exact h.trans hset (h.trans (h.learnPredecessor _ predecessor) (h.note _ _ (by nofun)))

theorem forwardJoin (next : Node) (request : JoinRequest) (net : Network) :
    R net (forwardJoin t k next request net).2 := by
  unfold Network.forwardJoin
  simp only
  split
  · exact h.refl net
  · have hcall := h.trans (h.note net (.joinForwarded next (request.hops + 1)) nofun)
      (ht .join next.endpoint { request with hops := request.hops + 1 } _)
    generalize t .join next.endpoint _ _ = p at hcall ⊢
    rcases p with ⟨_ | _, _⟩ <;> exact hcall

theorem notify (net : Network) : R net (notify t k net).2 := by
  unfold Network.notify
  cases net.peerSuccessor? k with
  | none => exact h.refl net
  | some successor =>
    have hcall := ht .notify successor.endpoint { requestingNode := some (net.self k).contact } net
    simp only
    generalize t .notify successor.endpoint _ _ = p at hcall ⊢
    rcases p with ⟨_ | _, _⟩ <;> exact hcall

theorem stabilize (net : Network) : R net (stabilize t k net).2 := by
  unfold Network.stabilize
  cases net.peerSuccessor? k with
  | none => exact h.refl net
  | some successor =>
    have hcall := ht .stabilize successor.endpoint { requestingNode := some (net.self k).contact } net
    simp only
    generalize t .stabilize successor.endpoint _ _ = p at hcall ⊢
    rcases p with ⟨fault | reply, net₁⟩
    · exact h.trans hcall (h.dropSuccessor net₁ successor fault)
    · simp only at hcall ⊢
      cases Contact.optional reply.predecessor with
      | error fault => exact hcall
      | ok candidate => exact h.trans hcall (h.trans (h.moveCloser _ _ candidate) (h.notify ht _))

theorem check (net : Network) : R net (check t k net).2 := by
  unfold Network.check
  split
  · next predecessor _ _ =>
    have hcall := ht .check predecessor.endpoint { requestingNode := some (net.self k).contact } net
    generalize t .check predecessor.endpoint _ _ = p at hcall ⊢
    rcases p with ⟨fault | reply, net₁⟩
    · exact h.trans hcall (h.dropPredecessor net₁ predecessor fault)
    · exact hcall
  · exact h.refl net

theorem answerJoin (request : JoinRequest) (net : Network) : R net (answerJoin t k request net).2 := by
  unfold Network.answerJoin
  cases Contact.required request.requestingNode "requesting_node" with
  | error fault => exact h.refl net
  | ok source =>
    simp only
    split
    · exact h.refl net
    cases JoinPlace.choose (net.self k) (net.predecessor? k) (net.peerSuccessor? k) source.id with
    | lone =>
      have hset := h.trans (h.note net (.joinedLone source (net.self k)) nofun)
        (h.setFinger _ Table.successorSlot source)
      exact h.trans hset (h.adoptPredecessor _ source)
    | ahead successor => exact h.trans (h.note net _ (by nofun)) (h.setFinger _ _ source)
    | behind predecessor => exact h.trans (h.note net _ (by nofun)) (h.adoptPredecessor _ source)
    | elsewhere next => exact h.trans (h.note net _ (by nofun)) (h.forwardJoin ht next request _)

omit ht in
theorem answerNotify (request : NotifyRequest) (net : Network) :
    R net (answerNotify k request net).2 := by
  unfold Network.answerNotify
  cases Contact.required request.requestingNode "requesting_node" with
  | error fault => exact h.refl net
  | ok source =>
    simp only
    split
    · exact h.refl net
    have hadopt : R net (if closerPredecessor (net.self k) (net.predecessor? k) source
        then net.adoptPredecessor k source else net) := by
      split
      · exact h.adoptPredecessor net source
      · exact h.refl net
    exact h.trans hadopt (h.adoptNotifier _ source)

omit ht in
theorem answerLeave (request : LeaveRequest) (net : Network) :
    R net (answerLeave k request net).2 := by
  unfold Network.answerLeave
  cases Contact.required request.requestingNode "requesting_node" with
  | error fault => exact h.refl net
  | ok node =>
    cases Contact.required request.predecessor "predecessor" with
    | error fault => exact h.refl net
    | ok predecessor => exact h.trans (h.note net _ (by nofun)) (h.publish _ _ (by nofun))

theorem answer (m : Method) (request : m.Request) (net : Network) :
    R net (answer t k m request net).2 := by
  cases m with
  | join => exact h.answerJoin ht request net
  | successor => exact h.answerSuccessor (ht .successor) request net
  | stabilize => exact h.refl net
  | notify => exact h.answerNotify request net
  | check => exact h.refl net
  | leave => exact h.answerLeave request net

end Steps

/-! ## Rounds -/

section Rounds

variable (h : Parts R k)
include h

/-- What is left of an attempt. -/
theorem reported {α : Type} {net : Network} {p : Except RingFault α × Network} (hp : R net p.2)
    {report : RingFault → Note} (hreport : ∀ fault index, report fault ≠ .fixingFinger index) :
    R net (reported report p) := by
  rcases p with ⟨fault | a, net'⟩
  · exact h.trans hp (h.note net' _ (hreport fault))
  · exact hp

/-- A round attempts slot after slot, and breaks off where an attempt fails. -/
theorem fixFingers (ht : ∀ endpoint request net, R net (t .successor endpoint request net).2)
    (hbegin : ∀ net, R net
      ((net.moveCursor k).note (.fixingFinger (fingerOfCursor (net.member k).cursor))))
    (count : Nat) (net : Network) : R net (fixFingers t k count net) := by
  induction count generalizing net with
  | zero => exact h.refl net
  | succ count ih =>
    have hfix := h.trans (hbegin net) (h.fixFinger ht (fingerOfCursor (net.member k).cursor) _)
    unfold Network.fixFingers
    simp only
    generalize Network.fixFinger t k _ _ = p at hfix ⊢
    rcases p with ⟨fault | _, net₁⟩
    · exact h.trans hfix (h.note net₁ _ (by nofun))
    · exact h.trans hfix (ih net₁)

end Rounds

end Parts

/-! ## On one network -/

/-- A relation holds of the requests of members where it holds of the parts of every member's steps, of the
    record of a request, and of scripted answers. -/
theorem outgoing_of_parts {R : Network → Network → Prop} (h : ∀ j, Parts R j)
    (hask : ∀ net m endpoint request, R net (net.ask m endpoint request))
    (hscript : ∀ net script, R net { net with script }) (d : Nat) (m : Method) (endpoint : String)
    (request : m.Request) (net : Network) : R net (outgoing relay d m endpoint request net).2 := by
  induction d generalizing m endpoint request net with
  | zero => exact (h 0).refl net
  | succ d ih =>
    have hsent := hask net m endpoint request
    show R net (relay (dispatch (outgoing relay d)) m endpoint request net).2
    cases relay_travelling net m endpoint request with
    | scripted _ script _ hr =>
      rw [hr]
      exact (h 0).trans hsent (hscript _ script)
    | lost hr =>
      rw [hr]
      exact hsent
    | reaching j _ hr =>
      rw [hr, arrived_snd]
      exact (h j).trans hsent ((h j).answer ih m request _)

end RingOverlay.Network
