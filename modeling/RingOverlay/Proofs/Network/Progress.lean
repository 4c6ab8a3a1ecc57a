import RingOverlay.Proofs.Network.Depth

/-!
# `Network.Progress` — requests are passed on ahead

A member that passes a lookup on asks a node that lies strictly between itself and the point, whatever its
slots hold: nodes of its own point, nothing in slot 0, nodes at wrong places. So the lookup comes closer to
the point with each request and never comes back to the member that sent it on.

The two readings that a route takes need not see the same table. If the table changes between them, any
closest node was chosen because it lies ahead, and the successor that stands in for one does so because it
does not own the point. If the table does not change, the successor need never stand in.

## Contents
- **Routes.** `Table.routeAcross`, a route from two readings, and `between_of_routeAcross`.
- **Steps.** `Asks`, whom a step asks and what, and `Asks.after`.
- **Lookups.** `Ahead` and `PassedOn`; `asks_follow`, `asks_lookup` and `asks_answerSuccessor`.
- **Newcomers.** `JoinPassedOn`; `asks_forwardJoin` and `asks_answerJoin`.
- **The member.** `asks_ahead`.
-/

namespace RingOverlay

/-! ## Routes -/

namespace Table

variable {before after : Table} {self n : Node} {id : RingId}

/-- The route to the owner of `id` where the table was `before` when the successor was read, and is `after`
    when the closest node is read. -/
def routeAcross (before after : Table) (self : Node) (id : RingId) : Route :=
  .choose self (before.successor?.getD self) (after.closestPreceding self id) id

theorem routeAcross_self (t : Table) (self : Node) (id : RingId) :
    t.routeAcross t self id = t.route self id := rfl

/-- A route leads to a node ahead, whatever happens to the table between the readings. -/
theorem between_of_routeAcross (h : before.routeAcross after self id = .forward n) :
    n.id.between self.id id = true := by
  unfold routeAcross Route.choose at h
  by_cases hid : id.betweenIncl self.id (before.successor?.getD self).id = true
  · rw [if_pos hid] at h
    cases h
  · rw [if_neg hid, Route.forward.injEq] at h
    by_cases hc : after.closestPreceding self id = self
    · rw [if_pos hc] at h
      rw [← h]
      exact RingId.between_of_not_betweenIncl hid
    · rw [if_neg hc] at h
      rcases closestPreceding_eq h with hself | ⟨hb, -⟩
      · exact absurd (h.trans hself) hc
      · exact hb

/-- The successor stands in where the other slots were lost between the readings. -/
example : (Table.empty.setFinger successorSlot ⟨.ofNat 5, "b"⟩).routeAcross .empty ⟨.one, "a"⟩
    (.ofNat 9) = .forward ⟨.ofNat 5, "b"⟩ := by decide +kernel

end Table

namespace Network

variable {net : Network} {k : Nat}

/-! ## Steps -/

/-- Whom a step asks, whatever transport it has: where there is a node and a request of the kind `P`, it sends
    that request to that node, before any member has changed; and where there is none, it asks nobody. -/
inductive Asks {α : Type} (m : Method) (P : Node → m.Request → Prop) (net : Network)
    (step : Transport → Except RingFault α × Network) : Prop where
  | nobody (result : Except RingFault α × Network) : (∀ n request, ¬P n request) →
      (∀ t, step t = result) → Asks m P net step
  | one (n : Node) (request : m.Request) (net₁ : Network)
      (back : Except TransportFault m.Response → Except RingFault α) : P n request → Quiet net net₁ →
      (∀ t, step t = Prod.map back (fun net => net) (t m n.endpoint request net₁)) → Asks m P net step

namespace Asks

variable {α β : Type} {m : Method} {P Q : Node → m.Request → Prop} {net₁ : Network}
  {step : Transport → Except RingFault α × Network}

/-- What is made of the result does not matter, nor what is reported before. -/
theorem after (h : Asks m P net₁ step) (hq : Quiet net net₁)
    (hPQ : ∀ n request, P n request ↔ Q n request) (f : Except RingFault α → Except RingFault β)
    {step' : Transport → Except RingFault β × Network}
    (hstep' : ∀ t, step' t = Prod.map f (fun net => net) (step t)) : Asks m Q net step' := by
  cases h with
  | nobody result hnone hstep =>
    refine .nobody (Prod.map f (fun net => net) result) ?_ ?_
    · intro n request hQ
      exact hnone n request ((hPQ n request).2 hQ)
    · intro t
      rw [hstep', hstep]
  | one n request net₂ back hP hq' hstep =>
    refine .one n request net₂ (f ∘ back) ((hPQ n request).1 hP) (hq.trans hq') ?_
    intro t
    rw [hstep', hstep]
    rfl

end Asks

/-! ## Lookups -/

/-- A node lies strictly between a member and a point, and so it has another point than the member. -/
def Ahead (self : Node) (id : RingId) (n : Node) : Prop :=
  n.id.between self.id id = true ∧ n.id ≠ self.id

theorem ahead_of_between {self n : Node} {id : RingId} (h : n.id.between self.id id = true) :
    Ahead self id n := by
  refine ⟨h, ?_⟩
  intro he
  rw [he] at h
  exact RingId.not_between_left _ _ h

/-- A lookup on a route is passed on to `n` by `request`: the route leads to `n`, which lies ahead; the count is
    below the limit of the member, and one higher in the request. -/
structure PassedOn (net : Network) (k : Nat) (id : RingId) (hops : UInt32) (route : Table.Route)
    (n : Node) (request : SuccessorRequest) : Prop where
  leads : route = .forward n
  ahead : Ahead (net.self k) id n
  below : hops < (net.member k).hopLimit
  onward : request = ⟨some (net.self k).contact, id.decimal, hops + 1⟩

/-- A lookup asks the node to which its route leads. -/
theorem asks_follow (net : Network) (k : Nat) (id : RingId) (hops : UInt32) (before : Table) :
    Asks .successor (PassedOn net k id hops (before.routeAcross (net.table k) (net.self k) id)) net
      fun t => follow t k id hops (before.routeAcross (net.table k) (net.self k) id) net := by
  rcases follow_onward net k id hops (before.routeAcross (net.table k) (net.self k) id) with
    ⟨result, hlimit, hf⟩ | ⟨hlt, n, note, back, hroute, hf⟩
  · refine .nobody (result, net) ?_ hf
    intro n request hpassed
    exact absurd hpassed.below (UInt32.not_lt.2 (hlimit n hpassed.leads))
  · have hahead := ahead_of_between (Table.between_of_routeAcross hroute)
    exact .one n _ (net.note note) back ⟨hroute, hahead, UInt32.lt_iff_toNat_lt.2 hlt, rfl⟩
      (quiet_note net note) hf

theorem asks_lookup (net : Network) (k : Nat) (id : RingId) (hops : UInt32) :
    Asks .successor (PassedOn net k id hops ((net.table k).route (net.self k) id)) net
      fun t => lookup t k id hops net := by
  simp only [lookup_eq_follow, ← Table.routeAcross_self]
  exact asks_follow net k id hops (net.table k)

/-- A member that is asked for the owner of a point passes that on as its own lookup does. -/
theorem asks_answerSuccessor (net : Network) (k : Nat) (request : SuccessorRequest) :
    Asks .successor (fun n next => ∃ id, RingId.ofDecimal request.id = .ok id ∧ id ≠ (net.self k).id ∧
        PassedOn net k id request.hops ((net.table k).route (net.self k) id) n next) net
      fun t => answerSuccessor t k request net := by
  unfold answerSuccessor
  cases hr : RingId.ofDecimal request.id with
  | error e =>
    refine .nobody _ ?_ fun _ => rfl
    rintro n next ⟨_, hid, -⟩
    cases hid
  | ok id =>
    simp only
    by_cases hself : id = (net.self k).id
    · simp only [if_pos hself]
      refine .nobody _ ?_ fun _ => rfl
      rintro n next ⟨_, hid, hne, -⟩
      cases hid
      exact hne hself
    · simp only [if_neg hself]
      refine (asks_lookup net k id request.hops).after (.refl net) ?_
        (Except.map fun owner => ⟨some owner.contact⟩) ?_
      · intro n next
        refine ⟨fun hpassed => ⟨id, rfl, hself, hpassed⟩, ?_⟩
        rintro ⟨_, hid, -, hpassed⟩
        cases hid
        exact hpassed
      · intro t
        rcases lookup t k id request.hops net with ⟨_ | _, _⟩ <;> rfl

/-! ## Newcomers -/

/-- A newcomer is passed on to `n` by `next`: it has another point than the member, and no place next to it;
    `n` is the successor, another node than the member; and the count is below the limit of the member,
    and one higher in what is passed on. -/
structure JoinPassedOn (net : Network) (k : Nat) (request : JoinRequest) (source n : Node)
    (next : JoinRequest) : Prop where
  newcomer : Contact.required request.requestingNode "requesting_node" = .ok source
  other : source.id ≠ (net.self k).id
  place : JoinPlace.choose (net.self k) (net.predecessor? k) (net.peerSuccessor? k) source.id
    = .elsewhere n
  successor : (net.table k).successor? = some n
  peer : n ≠ net.self k
  below : request.hops < (net.member k).hopLimit
  onward : next = { request with hops := request.hops + 1 }

/-- A request to join is passed on while it has not been passed on too often. -/
theorem asks_forwardJoin (net : Network) (k : Nat) (n : Node) (request : JoinRequest) :
    Asks .join (fun n' next => n' = n ∧ request.hops < (net.member k).hopLimit ∧
        next = { request with hops := request.hops + 1 }) net
      fun t => forwardJoin t k n request net := by
  by_cases hh : (net.member k).hopLimit ≤ request.hops
  · obtain ⟨fault, hf⟩ := forwardJoin_of_limit n hh
    refine .nobody _ ?_ hf
    rintro n' next ⟨-, hlt, -⟩
    exact absurd hlt (UInt32.not_lt.2 hh)
  · exact .one n _ (net.note (.joinForwarded n (request.hops + 1))) (Except.mapError .transport)
      ⟨rfl, UInt32.not_le.1 hh, rfl⟩ (quiet_note net _) fun _ => forwardJoin_eq hh

theorem asks_answerJoin (net : Network) (k : Nat) (request : JoinRequest) :
    Asks .join (fun n next => ∃ source, JoinPassedOn net k request source n next) net
      fun t => answerJoin t k request net := by
  unfold answerJoin
  cases hr : Contact.required request.requestingNode "requesting_node" with
  | error fault =>
    refine .nobody _ ?_ fun _ => rfl
    rintro n next ⟨_, hpassed⟩
    cases hr.symm.trans hpassed.newcomer
  | ok source =>
    -- whoever is passed on is the newcomer of the request
    have hsource : ∀ {source' n next}, JoinPassedOn net k request source' n next → source' = source :=
      fun hpassed => Except.ok.inj (hpassed.newcomer.symm.trans hr)
    simp only
    by_cases hself : source.id = (net.self k).id
    · simp only [if_pos hself]
      refine .nobody _ ?_ fun _ => rfl
      rintro n next ⟨_, hpassed⟩
      obtain rfl := hsource hpassed
      exact hpassed.other hself
    simp only [if_neg hself]
    cases hplace : JoinPlace.choose (net.self k) (net.predecessor? k) (net.peerSuccessor? k)
        source.id with
    | elsewhere next =>
      have hnext := choose_spec hself (net.predecessor? k) (net.peerSuccessor? k)
      rw [hplace] at hnext
      obtain ⟨hsuccessor, hpeer⟩ := Option.filter_eq_some_iff.1 hnext
      refine (asks_forwardJoin _ k next request).after (quiet_note net _) ?_ (fun result => result)
        fun _ => rfl
      intro n next'
      constructor
      · rintro ⟨rfl, hlt, rfl⟩
        exact ⟨source, hr, hself, hplace, hsuccessor, of_decide_eq_true hpeer, hlt, rfl⟩
      · rintro ⟨_, hpassed⟩
        obtain rfl := hsource hpassed
        exact ⟨JoinPlace.elsewhere.inj (hpassed.place.symm.trans hplace), hpassed.below, hpassed.onward⟩
    | _ =>
      refine .nobody _ ?_ fun _ => rfl
      rintro n next ⟨_, hpassed⟩
      obtain rfl := hsource hpassed
      cases hpassed.place.symm.trans hplace

/-! ## The member -/

/-- Whatever a member has in its table, a lookup asks nobody or the node to which its route leads, a node ahead,
    also where the table was another one (`before`) when the successor was read. Where it was not, the
    successor never stands in for the closest node. The member asks no other nodes when it answers a lookup of
    others; and it passes a newcomer on only to a successor that is another node than itself. -/
theorem asks_ahead (net : Network) (k : Nat) :
    (∀ id hops (before : Table),
      Asks .successor (PassedOn net k id hops (before.routeAcross (net.table k) (net.self k) id)) net
        fun t => follow t k id hops (before.routeAcross (net.table k) (net.self k) id) net) ∧
    (∀ id hops, Asks .successor (PassedOn net k id hops ((net.table k).route (net.self k) id)) net
      fun t => lookup t k id hops net) ∧
    (∀ id, (net.table k).route (net.self k) id =
      if id.betweenIncl (net.self k).id ((net.table k).successor?.getD (net.self k)).id
      then .owner ((net.table k).successor?.getD (net.self k))
      else .forward ((net.table k).closestPreceding (net.self k) id)) ∧
    (∀ request, Asks .successor (fun n next => ∃ id, RingId.ofDecimal request.id = .ok id ∧
        id ≠ (net.self k).id ∧
        PassedOn net k id request.hops ((net.table k).route (net.self k) id) n next) net
      fun t => answerSuccessor t k request net) ∧
    ∀ request, Asks .join (fun n next => ∃ source, JoinPassedOn net k request source n next) net
      fun t => answerJoin t k request net :=
  ⟨asks_follow net k, asks_lookup net k, (net.table k).route_eq (net.self k),
    asks_answerSuccessor net k, asks_answerJoin net k⟩

end Network

end RingOverlay
