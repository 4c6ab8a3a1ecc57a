import RingOverlay.Proofs.Network.Lookup

/-!
# `Network.Depth` — requests stop being forwarded

Whatever the tables of members hold, a request that a member passes on counts one hop more than the one
that it answers, and it is passed on only below the hop limit of the member. So the hop limits bound how
deep requests nest. The network asks for one level more than the greatest limit; nothing below that level
is ever asked, be it nobody, as in `outgoing`, or any other transport. The bound is therefore no part of
what members do: they answer as they would without it.

## Contents
- **One member.** `Onward`; `choose_spec`, where a newcomer goes; `follow_onward` and
  `answer_onward`, with `Answering`: a member settles a request by itself, or passes back what one request
  more brings; `answer_congr`.
- **One request.** `relay_travelling`, with `Travelling`: who answers it.
- **Levels.** `nested`, requests above any transport; `hopsLeft`, `nested_congr`.
- **Accounting.** `Sent`, the requests between two states; `sent_outgoing`.
- **Bounds.** `forwarding_stops`.
-/

namespace RingOverlay

/-- How often a request has been forwarded. Requests that are never forwarded do not count that. -/
def Method.hops? : (m : Method) → m.Request → Option UInt32
  | .join, request => some request.hops
  | .successor, request => some request.hops
  | _, _ => none

namespace Network

variable {net net' : Network} {k : Nat}

/-! ## One member -/

/-- What a member with a hop limit may ask others while it answers a request: the same once more, with a
    count that is one higher, and only while the count is below the limit. -/
def Onward (limit : UInt32) (m : Method) (request next : m.Request) : Prop :=
  ∃ hops hops', m.hops? request = some hops ∧ m.hops? next = some hops' ∧
    hops.toNat < limit.toNat ∧ hops'.toNat = hops.toNat + 1

/-- What a lookup does with the route that it has. -/
def follow (t : Transport) (k : Nat) (id : RingId) (hops : UInt32) (route : Table.Route) :
    Attempt Node := fun net =>
  match route with
  | .owner n => (.ok n, net)
  | .forward next =>
    if (net.member k).hopLimit ≤ hops then
      (.error (.hopLimitExceeded id.decimal (net.member k).hopLimit), net)
    else
      match t .successor next.endpoint ⟨some (net.self k).contact, id.decimal, hops + 1⟩
          (net.note (.lookupForwarded id next (hops + 1))) with
      | (.error fault, net) =>
        (.error (.lookupFailed (id.short ++ " via " ++ next.short ++ ": " ++ fault.message)), net)
      | (.ok reply, net) => (Contact.required reply.successor "successor", net)

theorem lookup_eq_follow (t : Transport) (k : Nat) (id : RingId) (hops : UInt32) (net : Network) :
    lookup t k id hops net = follow t k id hops ((net.table k).route (net.self k) id) net := rfl

/-- A lookup is settled at the member, at the latest where it was passed on too often, or it comes to what one
    request to the next node on the route brings. -/
theorem follow_onward (net : Network) (k : Nat) (id : RingId) (hops : UInt32) (route : Table.Route) :
    (∃ result, (∀ n, route = .forward n → (net.member k).hopLimit ≤ hops) ∧
      ∀ t, follow t k id hops route net = (result, net)) ∨
    (hops.toNat < (net.member k).hopLimit.toNat ∧ ∃ next n back, route = .forward next ∧
      ∀ t, follow t k id hops route net = Prod.map back (fun net => net)
        (t .successor next.endpoint ⟨some (net.self k).contact, id.decimal, hops + 1⟩
          (net.note n))) := by
  cases route with
  | owner n => exact .inl ⟨.ok n, nofun, fun _ => rfl⟩
  | forward next =>
    by_cases hh : (net.member k).hopLimit ≤ hops
    · exact .inl ⟨.error (.hopLimitExceeded id.decimal (net.member k).hopLimit), fun _ _ => hh,
        fun _ => if_pos hh⟩
    · refine .inr ⟨UInt32.lt_iff_toNat_lt.1 (UInt32.not_le.1 hh), next,
        .lookupForwarded id next (hops + 1), fun
          | .error fault =>
            .error (.lookupFailed (id.short ++ " via " ++ next.short ++ ": " ++ fault.message))
          | .ok reply => Contact.required reply.successor "successor", rfl, ?_⟩
      intro t
      refine (if_neg hh).trans ?_
      rcases t .successor next.endpoint ⟨some (net.self k).contact, id.decimal, hops + 1⟩
        (net.note (.lookupForwarded id next (hops + 1))) with ⟨_ | _, _⟩ <;> rfl

theorem lookup_onward (net : Network) (k : Nat) (id : RingId) (hops : UInt32) :
    (∃ result, ∀ t, lookup t k id hops net = (result, net)) ∨
    (hops.toNat < (net.member k).hopLimit.toNat ∧ ∃ next : Node, ∃ sender n back, ∀ t,
      lookup t k id hops net = Prod.map back (fun net => net)
        (t .successor next.endpoint ⟨sender, id.decimal, hops + 1⟩ (net.note n))) := by
  simp only [lookup_eq_follow]
  rcases follow_onward net k id hops ((net.table k).route (net.self k) id) with
    ⟨result, -, hf⟩ | ⟨hlt, next, n, back, -, hf⟩
  · exact .inl ⟨result, hf⟩
  · exact .inr ⟨hlt, next, _, n, back, hf⟩

/-- A request to join that was passed on too often is not passed on any more. -/
theorem forwardJoin_of_limit (next : Node) {request : JoinRequest}
    (hh : (net.member k).hopLimit ≤ request.hops) :
    ∃ fault, ∀ t, forwardJoin t k next request net = (.error fault, net) := by
  refine ⟨.hopLimitExceeded ((request.requestingNode.map (·.nodeId)).getD "")
    (net.member k).hopLimit, ?_⟩
  intro t
  unfold forwardJoin
  exact if_pos hh

/-- What comes of a request to join that is passed on is passed back. -/
theorem forwardJoin_eq {t : Transport} {next : Node} {request : JoinRequest}
    (hh : ¬(net.member k).hopLimit ≤ request.hops) :
    forwardJoin t k next request net = Prod.map (Except.mapError .transport) (fun net => net)
      (t .join next.endpoint { request with hops := request.hops + 1 }
        (net.note (.joinForwarded next (request.hops + 1)))) := by
  unfold forwardJoin
  simp only
  rw [if_neg hh]
  rcases t .join next.endpoint { request with hops := request.hops + 1 }
    (net.note (.joinForwarded next (request.hops + 1))) with ⟨_ | _, _⟩ <;> rfl

theorem forwardJoin_onward (net : Network) (k : Nat) (next : Node) (request : JoinRequest) :
    (∃ fault, ∀ t, forwardJoin t k next request net = (.error fault, net)) ∨
    (request.hops.toNat < (net.member k).hopLimit.toNat ∧ ∃ n, ∀ t,
      forwardJoin t k next request net = Prod.map (Except.mapError .transport) (fun net => net)
        (t .join next.endpoint { request with hops := request.hops + 1 } (net.note n))) := by
  by_cases hh : (net.member k).hopLimit ≤ request.hops
  · exact .inl (forwardJoin_of_limit next hh)
  · exact .inr ⟨UInt32.lt_iff_toNat_lt.1 (UInt32.not_le.1 hh),
      .joinForwarded next (request.hops + 1), fun _ => forwardJoin_eq hh⟩

/-- Where a member that knows both neighbours puts a newcomer. -/
theorem choose_of_some (self p s : Node) (x : RingId) :
    JoinPlace.choose self (some p) (some s) x =
      if ¬x.between p.id s.id then .elsewhere s
      else if x.between self.id s.id then .ahead s
      else if x.between p.id self.id then .behind p
      else .elsewhere s := by
  simp [JoinPlace.choose]

/-- Where a member puts a newcomer of another point: next to itself on an arc that the newcomer lies on, or
    further on where it knows a successor. -/
theorem choose_spec {self : Node} {x : RingId} (hx : x ≠ self.id) (p s : Option Node) :
    match JoinPlace.choose self p s x with
    | .lone => p = none ∧ s = none
    | .ahead successor => successor = s.getD self ∧ x.between self.id successor.id = true
    | .behind predecessor => predecessor = p.getD self ∧ x.between predecessor.id self.id = true
    | .elsewhere next => s = some next := by
  have hself : x.between self.id self.id = true := RingId.between_self_iff.2 hx
  rcases p with _ | p <;> rcases s with _ | s
  · simp [JoinPlace.choose]
  · have hplace : JoinPlace.choose self none (some s) x
        = if x.between self.id s.id then .ahead s else .behind self := by
      simp [JoinPlace.choose, hself]
    rw [hplace]
    by_cases hs : x.between self.id s.id = true
    · rw [if_pos hs]
      exact ⟨rfl, hs⟩
    · rw [if_neg hs]
      exact ⟨rfl, hself⟩
  · have hplace : JoinPlace.choose self (some p) none x = .ahead self := by
      simp [JoinPlace.choose, hself]
    rw [hplace]
    exact ⟨rfl, hself⟩
  · rw [choose_of_some]
    by_cases hps : x.between p.id s.id = true
    · rw [if_neg (not_not.2 hps)]
      by_cases hs : x.between self.id s.id = true
      · rw [if_pos hs]
        exact ⟨rfl, hs⟩
      · rw [if_neg hs]
        by_cases hp : x.between p.id self.id = true
        · rw [if_pos hp]
          exact ⟨rfl, hp⟩
        · rw [if_neg hp]
    · rw [if_pos hps]

theorem calls_setFinger (net : Network) (k : Nat) (i : Fin 256) (n : Node) :
    (net.setFinger k i n).calls = net.calls := by
  unfold setFinger
  split <;> rfl

theorem calls_adoptPredecessor (net : Network) (k : Nat) (n : Node) :
    (net.adoptPredecessor k n).calls = net.calls := by
  unfold adoptPredecessor
  simp only
  split <;> rfl

theorem calls_learnPredecessor (net : Network) (k : Nat) (told : Option Node) :
    (net.learnPredecessor k told).calls = net.calls := by
  unfold learnPredecessor
  cases told with
  | none => rfl
  | some n =>
    simp only
    split <;> rfl

/-- How a member answers a request, whatever transport it has. -/
inductive Answering (net : Network) (k : Nat) (m : Method) (request : m.Request) : Prop where
  /-- It asks nobody, and no member changes. -/
  | settled (result : Except RingFault m.Response) (net' : Network) :
      (∀ t, answer t k m request net = (result, net')) → net'.calls = net.calls → Quiet net net' →
      Answering net k m request
  /-- It asks nobody and grants the request, which may change what it knows. -/
  | granted (reply : m.Response) (net' : Network) : m ≠ .successor →
      (∀ t, answer t k m request net = (.ok reply, net')) → net'.calls = net.calls →
      Answering net k m request
  /-- It asks one other member and passes back what comes of that. Where a newcomer is granted its
      request, it is granted here, too. -/
  | onward (n : Node) (next : m.Request) (net₁ : Network)
      (back : Except TransportFault m.Response → Except RingFault m.Response) :
      Onward (net.member k).hopLimit m request next →
      net₁.calls = net.calls → Quiet net net₁ →
      (∀ t, answer t k m request net
        = Prod.map back (fun net => net) (t m n.endpoint next net₁)) →
      (m = .successor ∨ ∀ reply, back (.ok reply) = .ok reply) → Answering net k m request

theorem answerJoin_onward (net : Network) (k : Nat) (request : JoinRequest) :
    Answering net k .join request := by
  have hanswer : ∀ t, answer t k .join request net = answerJoin t k request net := fun _ => rfl
  unfold answerJoin at hanswer
  cases hr : Contact.required request.requestingNode "requesting_node" with
  | error fault =>
    rw [hr] at hanswer
    exact .settled _ _ hanswer rfl (.refl net)
  | ok source =>
    rw [hr] at hanswer
    simp only at hanswer
    by_cases hid : source.id = (net.self k).id
    · simp only [if_pos hid] at hanswer
      exact .settled _ _ hanswer rfl (.refl net)
    simp only [if_neg hid] at hanswer
    cases hplace : JoinPlace.choose (net.self k) (net.predecessor? k) (net.peerSuccessor? k)
        source.id with
    | lone =>
      rw [hplace] at hanswer
      refine .granted _ _ (by decide) hanswer ?_
      rw [calls_adoptPredecessor, calls_setFinger]
      rfl
    | ahead successor =>
      rw [hplace] at hanswer
      exact .granted _ _ (by decide) hanswer (calls_setFinger ..)
    | behind predecessor =>
      rw [hplace] at hanswer
      exact .granted _ _ (by decide) hanswer (calls_adoptPredecessor ..)
    | elsewhere next =>
      rw [hplace] at hanswer
      simp only at hanswer
      have hnote := quiet_note net (.joinElsewhere source (net.self k))
      rcases forwardJoin_onward (net.note (.joinElsewhere source (net.self k))) k next request with
        ⟨fault, hf⟩ | ⟨hlt, n, hf⟩
      · exact .settled _ _ (fun t => (hanswer t).trans (hf t)) rfl hnote
      · refine .onward next { request with hops := request.hops + 1 }
          ((net.note (.joinElsewhere source (net.self k))).note n) (Except.mapError .transport) ?_ rfl
          (hnote.trans (quiet_note _ n)) (fun t => (hanswer t).trans (hf t)) (.inr fun _ => rfl)
        exact ⟨request.hops, request.hops + 1, rfl, rfl, hlt, (not_limit_le hlt).2⟩

theorem answerSuccessor_onward (net : Network) (k : Nat) (request : SuccessorRequest) :
    Answering net k .successor request := by
  have hanswer : ∀ t, answer t k .successor request net = answerSuccessor t k request net :=
    fun _ => rfl
  unfold answerSuccessor at hanswer
  cases hr : RingId.ofDecimal request.id with
  | error e =>
    rw [hr] at hanswer
    exact .settled _ _ hanswer rfl (.refl net)
  | ok id =>
    rw [hr] at hanswer
    simp only at hanswer
    by_cases hid : id = (net.self k).id
    · simp only [if_pos hid] at hanswer
      exact .settled _ _ hanswer rfl (.refl net)
    simp only [if_neg hid] at hanswer
    rcases lookup_onward net k id request.hops with
      ⟨result, hl⟩ | ⟨hlt, next, sender, n, back, hl⟩
    · simp only [hl] at hanswer
      cases result with
      | error fault => exact .settled _ _ hanswer rfl (.refl net)
      | ok owner => exact .settled _ _ hanswer rfl (.refl net)
    · refine .onward next ⟨sender, id.decimal, request.hops + 1⟩ (net.note n)
        (fun reply => (back reply).map fun owner => ⟨some owner.contact⟩) ?_ rfl
        (quiet_note net n) ?_ (.inl rfl)
      · exact ⟨request.hops, request.hops + 1, rfl, rfl, hlt, (not_limit_le hlt).2⟩
      · intro t
        rw [hanswer, hl]
        rcases t .successor next.endpoint ⟨sender, id.decimal, request.hops + 1⟩ (net.note n) with
          ⟨reply, net'⟩
        simp only [Prod.map]
        cases back reply <;> rfl

theorem answerNotify_onward (net : Network) (k : Nat) (request : NotifyRequest) :
    Answering net k .notify request := by
  have hanswer : ∀ t, answer t k .notify request net = answerNotify k request net := fun _ => rfl
  unfold answerNotify at hanswer
  cases hr : Contact.required request.requestingNode "requesting_node" with
  | error fault =>
    rw [hr] at hanswer
    exact .settled _ _ hanswer rfl (.refl net)
  | ok source =>
    rw [hr] at hanswer
    simp only at hanswer
    by_cases hid : source.id = (net.self k).id
    · simp only [if_pos hid] at hanswer
      exact .settled _ _ hanswer rfl (.refl net)
    · simp only [if_neg hid] at hanswer
      refine .granted _ _ (by decide) hanswer ?_
      unfold adoptNotifier
      split <;> split <;> simp only [calls_setFinger, calls_adoptPredecessor, note]

theorem answerLeave_onward (net : Network) (k : Nat) (request : LeaveRequest) :
    Answering net k .leave request := by
  have hanswer : ∀ t, answer t k .leave request net = answerLeave k request net := fun _ => rfl
  unfold answerLeave at hanswer
  cases hr : Contact.required request.requestingNode "requesting_node" with
  | error fault =>
    rw [hr] at hanswer
    exact .settled _ _ hanswer rfl (.refl net)
  | ok node =>
    rw [hr] at hanswer
    simp only at hanswer
    cases hp : Contact.required request.predecessor "predecessor" with
    | error fault =>
      rw [hp] at hanswer
      exact .settled _ _ hanswer rfl (.refl net)
    | ok predecessor =>
      rw [hp] at hanswer
      exact .granted _ _ (by decide) hanswer rfl

/-- A member settles a request by itself, or it passes back what one request more brings. -/
theorem answer_onward (net : Network) (k : Nat) (m : Method) (request : m.Request) :
    Answering net k m request := by
  cases m with
  | join => exact answerJoin_onward net k request
  | successor => exact answerSuccessor_onward net k request
  | stabilize => exact .settled _ _ (fun _ => rfl) rfl (.refl net)
  | notify => exact answerNotify_onward net k request
  | check => exact .settled _ _ (fun _ => rfl) rfl (.refl net)
  | leave => exact answerLeave_onward net k request

/-- Of its transport, a member uses only what it may ask while it answers. -/
theorem answer_congr {m : Method} {request : m.Request} {t t' : Transport}
    (h : ∀ endpoint next net₁, Quiet net net₁ → Onward (net.member k).hopLimit m request next →
      t m endpoint next net₁ = t' m endpoint next net₁) :
    answer t k m request net = answer t' k m request net := by
  cases answer_onward net k m request with
  | settled _ _ ha => rw [ha, ha]
  | granted _ _ _ ha => rw [ha, ha]
  | onward _ _ _ _ hnext _ hq ha => rw [ha, ha, h _ _ _ hq hnext]

/-! ## One request -/

/-- How a request of a member travels, whatever the way of further requests is. -/
inductive Travelling (net : Network) (m : Method) (endpoint : String) (request : m.Request) : Prop where
  /-- A scripted answer takes the network's place. -/
  | scripted (result : Except TransportFault m.Response) (script : List ScriptedAnswer) :
      net.script ≠ [] →
      (∀ t, relay (dispatch t) m endpoint request net
        = (result, { net.ask m endpoint request with script })) →
      Travelling net m endpoint request
  /-- Nobody answers at the endpoint. -/
  | lost : (∀ t, relay (dispatch t) m endpoint request net
        = (.error (.peerUnreachable endpoint), net.ask m endpoint request)) →
      Travelling net m endpoint request
  /-- A member answers. -/
  | reaching (k : Nat) : net.find? endpoint = some k →
      (∀ t, relay (dispatch t) m endpoint request net
        = arrived (answer t k m request (net.ask m endpoint request))) →
      Travelling net m endpoint request

theorem relay_travelling (net : Network) (m : Method) (endpoint : String) (request : m.Request) :
    Travelling net m endpoint request := by
  have hrelay : ∀ t, relay (dispatch t) m endpoint request net
      = RingOverlay.Network.scripted (dispatch t) m endpoint request
          (net.ask m endpoint request) := fun _ => rfl
  unfold RingOverlay.Network.scripted at hrelay
  cases hs : takeAnswer? m endpoint (net.ask m endpoint request).script with
  | some taken =>
    rw [hs] at hrelay
    refine .scripted taken.1 taken.2 ?_ hrelay
    intro hnil
    rw [show (net.ask m endpoint request).script = [] from hnil] at hs
    cases hs
  | none =>
    rw [hs] at hrelay
    have hask : (net.ask m endpoint request).find? endpoint = net.find? endpoint := rfl
    cases hf : net.find? endpoint with
    | none =>
      refine .lost fun t => (hrelay t).trans ?_
      simp only [dispatch, hask, hf]
    | some k =>
      refine .reaching k hf fun t => (hrelay t).trans ?_
      simp only [dispatch, hask, hf]
      rcases answer t k m request (net.ask m endpoint request) with ⟨_ | _, _⟩ <;> rfl

/-! ## Levels -/

/-- Requests of members that nest at most `d` deep, above requests that `bottom` carries. -/
def nested (bottom : Transport) : Nat → Transport
  | 0 => bottom
  | d + 1 => relay (dispatch (nested bottom d))

theorem nested_silent (d : Nat) : nested silent d = outgoing relay d := by
  induction d with
  | zero => rfl
  | succ d ih => rw [nested, ih, outgoing]

/-- How often a request can be passed on where no limit is above `limit`. -/
def hopsLeft (limit : Nat) (m : Method) (request : m.Request) : Nat :=
  match m.hops? request with
  | none => 0
  | some hops => limit - hops.toNat

theorem Onward.hopsLeft_lt {limit : Nat} {l : UInt32} {m : Method} {request next : m.Request}
    (h : Onward l m request next) (hl : l.toNat ≤ limit) :
    hopsLeft limit m next < hopsLeft limit m request := by
  obtain ⟨hops, hops', hr, hn, hlt, hsucc⟩ := h
  unfold hopsLeft
  rw [hr, hn]
  simp only
  omega

/-- What is below the levels that a request can reach is never asked. -/
theorem nested_congr (bottom bottom' : Transport) {limit : Nat} {d d' : Nat} {m : Method}
    {request : m.Request} {endpoint : String} (hlim : ∀ k, (net.member k).hopLimit.toNat ≤ limit)
    (hd : hopsLeft limit m request < d) (hd' : hopsLeft limit m request < d') :
    nested bottom d m endpoint request net = nested bottom' d' m endpoint request net := by
  induction d generalizing net d' request endpoint with
  | zero => omega
  | succ d ih =>
    cases d' with
    | zero => omega
    | succ d' =>
      have hask := quiet_ask net m endpoint request
      show relay (dispatch (nested bottom d)) m endpoint request net
        = relay (dispatch (nested bottom' d')) m endpoint request net
      cases relay_travelling net m endpoint request with
      | scripted _ _ _ ht => rw [ht, ht]
      | lost ht => rw [ht, ht]
      | reaching k _ ht =>
        rw [ht, ht, answer_congr]
        -- a request that is passed on can be passed on once less
        intro endpoint next net₁ hq hnext
        have hk := hlim k
        rw [← hask.kept.hopLimit] at hk
        have hfall := hnext.hopsLeft_lt hk
        refine ih ?_ (by omega) (by omega)
        intro l
        rw [(hask.trans hq).kept.hopLimit]
        exact hlim l

/-! ## Accounting -/

/-- At most `c` requests were sent, all for the method `m`. -/
def Sent (net net' : Network) (m : Method) (c : Nat) : Prop :=
  ∃ sent : List Call, net'.calls = sent ++ net.calls ∧ sent.length ≤ c ∧
    ∀ call ∈ sent, call.method = m

section Sent

variable {m : Method} {c : Nat}

theorem Sent.of_calls (h : net'.calls = net.calls) : Sent net net' m c :=
  ⟨[], h, Nat.zero_le c, fun _ hc => absurd hc List.not_mem_nil⟩

theorem Sent.after {net₁ : Network} (h : Sent net₁ net' m c) (h₁ : net₁.calls = net.calls) :
    Sent net net' m c := by
  obtain ⟨sent, hs, hc⟩ := h
  exact ⟨sent, by rw [hs, h₁], hc⟩

theorem Sent.before {net₁ : Network} (h : Sent net net₁ m c) (h₁ : net'.calls = net₁.calls) :
    Sent net net' m c := by
  obtain ⟨sent, hs, hc⟩ := h
  exact ⟨sent, h₁.trans hs, hc⟩

theorem Sent.ask {endpoint : String} {request : m.Request}
    (h : Sent (net.ask m endpoint request) net' m c) : Sent net net' m (c + 1) := by
  obtain ⟨sent, hs, hlen, hm⟩ := h
  refine ⟨sent ++ [⟨m, endpoint, request⟩], ?_, ?_, ?_⟩
  · rw [hs, List.append_assoc]
    rfl
  · rw [List.length_append]
    exact Nat.add_le_add_right hlen 1
  · intro call hcall
    rcases List.mem_append.1 hcall with hcall | hcall
    · exact hm call hcall
    · rw [List.mem_singleton] at hcall
      rw [hcall]

/-- An answer sends what its transport sends for one request. -/
theorem answer_sent {t : Transport}
    (ht : ∀ endpoint next net₁, Sent net₁ (t m endpoint next net₁).2 m c) (request : m.Request) :
    Sent net (answer t k m request net).2 m c := by
  cases answer_onward net k m request with
  | settled _ _ ha hcalls _ =>
    rw [ha]
    exact .of_calls hcalls
  | granted _ _ _ ha hcalls =>
    rw [ha]
    exact .of_calls hcalls
  | onward n next net₁ _ _ hcalls _ ha _ =>
    rw [ha]
    exact (ht n.endpoint next net₁).after hcalls

/-- A request and all that it causes are at most as many as the levels, and of one method. -/
theorem sent_outgoing (d : Nat) (endpoint : String) (request : m.Request) (net : Network) :
    Sent net (outgoing relay d m endpoint request net).2 m d := by
  induction d generalizing endpoint request net with
  | zero => exact .of_calls rfl
  | succ d ih =>
    show Sent net (relay (dispatch (outgoing relay d)) m endpoint request net).2 m (d + 1)
    cases relay_travelling net m endpoint request with
    | scripted _ _ _ ht =>
      rw [ht]
      exact Sent.ask (.of_calls rfl)
    | lost ht =>
      rw [ht]
      exact Sent.ask (.of_calls rfl)
    | reaching k _ ht =>
      have hanswer : Sent (net.ask m endpoint request) _ m d := answer_sent (k := k) ih request
      rw [ht, arrived_snd]
      exact hanswer.ask

/-- A lookup sends what its transport sends for one request. -/
theorem lookup_sent {t : Transport}
    (ht : ∀ endpoint next net₁, Sent net₁ (t .successor endpoint next net₁).2 .successor c)
    (id : RingId) (hops : UInt32) : Sent net (lookup t k id hops net).2 .successor c := by
  rcases lookup_onward net k id hops with ⟨result, hl⟩ | ⟨-, next, sender, n, back, hl⟩
  · rw [hl]
    exact .of_calls rfl
  · rw [hl]
    exact (ht next.endpoint ⟨sender, id.decimal, hops + 1⟩ (net.note n)).after rfl

/-- What a member makes of the answer to its request to join sends nothing. -/
theorem calls_join (t : Transport) (k : Nat) (through : String) (net : Network) :
    (join t k through net).2.calls
      = (t .join through { requestingNode := some (net.self k).contact }
          (net.note (.joining (net.self k) through))).2.calls := by
  unfold join
  simp only
  rcases t .join through { requestingNode := some (net.self k).contact }
    (net.note (.joining (net.self k) through)) with ⟨fault | reply, net₁⟩
  · rfl
  · simp only
    cases Contact.required reply.successor "successor" with
    | error fault => rfl
    | ok successor =>
      simp only
      have hset : (if successor = net.self k then net₁
          else net₁.setFinger k Table.successorSlot successor).calls = net₁.calls := by
        split
        · rfl
        · exact calls_setFinger ..
      cases Contact.optional reply.predecessor with
      | error fault => exact hset
      | ok predecessor => exact (calls_learnPredecessor ..).trans hset

end Sent

/-! ## Bounds -/

section Bounds

variable {limit d d' : Nat}

/-- The hop limits bound the levels that a lookup needs. -/
theorem lookup_nested (hlim : ∀ k, (net.member k).hopLimit.toNat ≤ limit) (hd : limit ≤ d)
    (hd' : limit ≤ d') (bottom bottom' : Transport) (k : Nat) (id : RingId) :
    lookup (nested bottom d) k id 0 net = lookup (nested bottom' d') k id 0 net := by
  rcases lookup_onward net k id 0 with ⟨result, hl⟩ | ⟨hlt, next, sender, n, back, hl⟩
  · rw [hl, hl]
  · have hk := hlim k
    rw [UInt32.toNat_zero] at hlt
    have hleft : hopsLeft limit .successor ⟨sender, id.decimal, 0 + 1⟩ = limit - 1 := rfl
    have hnote : ∀ l, ((net.note n).member l).hopLimit.toNat ≤ limit := hlim
    have hcall : nested bottom d .successor next.endpoint ⟨sender, id.decimal, 0 + 1⟩ (net.note n)
        = nested bottom' d' .successor next.endpoint ⟨sender, id.decimal, 0 + 1⟩ (net.note n) :=
      nested_congr bottom bottom' hnote (by omega) (by omega)
    rw [hl, hl, hcall]

/-- A join needs one level more, for its own request. -/
theorem join_nested (hlim : ∀ k, (net.member k).hopLimit.toNat ≤ limit) (hd : limit < d)
    (hd' : limit < d') (bottom bottom' : Transport) (k : Nat) (through : String) :
    join (nested bottom d) k through net = join (nested bottom' d') k through net := by
  let request : JoinRequest := { requestingNode := some (net.self k).contact }
  let asked := net.note (.joining (net.self k) through)
  have hleft : hopsLeft limit .join request = limit := rfl
  have hasked : ∀ l, (asked.member l).hopLimit.toNat ≤ limit := hlim
  have hcall : nested bottom d .join through request asked
      = nested bottom' d' .join through request asked :=
    nested_congr bottom bottom' hasked (hleft.trans_lt hd) (hleft.trans_lt hd')
  unfold join
  simp only
  rw [hcall]

end Bounds

theorem foldl_max_le {α : Type} (f : α → Nat) {l : List α} {d M : Nat} (hd : d ≤ M)
    (hl : ∀ a ∈ l, f a ≤ M) : l.foldl (fun d a => max d (f a)) d ≤ M := by
  induction l generalizing d with
  | nil => exact hd
  | cons x l ih =>
    have hx := hl x (List.mem_cons_self ..)
    exact ih (Nat.max_le.2 ⟨hd, hx⟩) fun a ha => hl a (List.mem_cons_of_mem x ha)

theorem callDepth_le {M : Nat} (hM : ∀ m ∈ net.members, m.hopLimit.toNat ≤ M) :
    net.callDepth ≤ M + 1 :=
  Nat.succ_le_succ (foldl_max_le (fun m : Member => m.hopLimit.toNat) (Nat.zero_le M) hM)

/-- No member forwards requests more often than the network allows for. -/
theorem hopLimit_le (net : Network) (k : Nat) : (net.member k).hopLimit.toNat ≤ net.callDepth - 1 := by
  rcases Nat.lt_or_ge k net.members.length with hk | hk
  · exact Nat.le_sub_one_of_lt (hopLimit_lt_callDepth hk)
  · rw [member, List.getElem?_eq_none hk]
    exact Nat.zero_le _

/-- Where no hop limit is above `M`, a lookup sends at most `M` requests and a join at most one more. They
    then have their result, which no deeper request could change. No member counts a request beyond its
    own limit: what it asks of others while it answers counts one more than what it was asked, and was
    below the limit. -/
theorem forwarding_stops {M : Nat} (hM : ∀ m ∈ net.members, m.hopLimit.toNat ≤ M) :
    (∀ k id, Sent net (lookup transport k id 0 net).2 .successor M ∧
      ∀ bottom d, M ≤ d → lookup (nested bottom d) k id 0 net = lookup transport k id 0 net) ∧
    (∀ k through, Sent net (join transport k through net).2 .join (M + 1) ∧
      ∀ bottom d, M < d → join (nested bottom d) k through net = join transport k through net) ∧
    ∀ k m request (t t' : Transport),
      (∀ endpoint next net₁, Onward (net.member k).hopLimit m request next →
        t m endpoint next net₁ = t' m endpoint next net₁) →
      answer t k m request net = answer t' k m request net := by
  have hdepth := callDepth_le hM
  have hpos : 0 < net.callDepth := Nat.succ_pos _
  have hlookup : ∀ bottom d k id, M ≤ d →
      lookup (nested bottom d) k id 0 net = lookup transport k id 0 net := by
    intro bottom d k id hd
    rw [lookup_transport, ← nested_silent]
    exact lookup_nested net.hopLimit_le (by omega) (by omega) bottom silent k id
  have hjoin : ∀ bottom d k through, M < d →
      join (nested bottom d) k through net = join transport k through net := by
    intro bottom d k through hd
    show _ = join (outgoing relay net.callDepth) k through net
    rw [← nested_silent]
    exact join_nested net.hopLimit_le (by omega) (by omega) bottom silent k through
  refine ⟨?_, ?_, ?_⟩
  · intro k id
    refine ⟨?_, fun bottom d => hlookup bottom d k id⟩
    rw [← hlookup silent M k id (Nat.le_refl M), nested_silent]
    exact lookup_sent (sent_outgoing M) id 0
  · intro k through
    refine ⟨?_, fun bottom d => hjoin bottom d k through⟩
    rw [← hjoin silent (M + 1) k through (Nat.lt_succ_self M), nested_silent]
    have hsent := sent_outgoing (m := .join) (M + 1) through
      { requestingNode := some (net.self k).contact } (net.note (.joining (net.self k) through))
    exact (hsent.after rfl).before (calls_join ..)
  · intro k m request t t' h
    exact answer_congr fun endpoint next net₁ _ => h endpoint next net₁

/-- Two members that each take the other one for the next one ahead, at a point where it is not. -/
def tangled : Network where
  members :=
    [{ self := ⟨.ofNat 10, "a"⟩, hopLimit := 3, joinThrough := none, fingersPerTick := 1
       table := Table.empty.setFinger Table.successorSlot ⟨.ofNat 11, "b"⟩ },
     { self := ⟨.ofNat 20, "b"⟩, hopLimit := 4, joinThrough := none, fingersPerTick := 1
       table := Table.empty.setFinger Table.successorSlot ⟨.ofNat 21, "a"⟩ }]
  registry := [("a", 0), ("b", 1)]

theorem forwarding_stops_tangled :
    (∀ k id, Sent tangled (lookup transport k id 0 tangled).2 .successor 4 ∧
      ∀ bottom d, 4 ≤ d → lookup (nested bottom d) k id 0 tangled = lookup transport k id 0 tangled) ∧
    (∀ k through, Sent tangled (join transport k through tangled).2 .join 5 ∧
      ∀ bottom d, 4 < d →
        join (nested bottom d) k through tangled = join transport k through tangled) ∧
    ∀ k m request (t t' : Transport),
      (∀ endpoint next net₁, Onward (tangled.member k).hopLimit m request next →
        t m endpoint next net₁ = t' m endpoint next net₁) →
      answer t k m request tangled = answer t' k m request tangled :=
  forwarding_stops (by decide)

end Network

end RingOverlay
