import RingOverlay.Proofs.Network.Admission
import RingOverlay.Proofs.Network.RootCause

/-!
# `Network.Rebuff` — what a request that fails is taken for

Every fault that a member finds itself arrives as `rejected` or `remote`, and that a lookup which it passed
on has failed is such a fault, too. A join that it passed on is different: the member has only the fault of
its own call to pass back, whatever that was, and that arrives as `peerUnreachable`. So the first member of
a chain of joins that fails learns why, and everyone before it learns that a peer cannot be reached, though
all of them have answered.

## Contents
- **Faults.** `RingFault.Own` and `TransportFault.Reported`, what a member finds and how it arrives.
- **One member.** `own_of_answer`; `Refusing` and `PassingOn`, what a member does with a join that it does
  not grant.
- **Chains.** `Rebuff`, and `passedBack` for what arrives at its start.
- **Requests.** `dispatch_of_rebuff` and `rebuff_of_dispatch`, by induction on the chain and the depth.
- **The network.** `faults_of_answering`; `refused_reads_unreachable_trio`, a join that is refused.
-/

namespace RingOverlay

/-! ## Faults -/

/-- A fault that a member found itself, and did not get from a call. -/
def RingFault.Own (fault : RingFault) : Prop := ∀ lost, fault ≠ .transport lost

/-- The peer answered, if only to say what is wrong. -/
def TransportFault.Reported (fault : TransportFault) : Prop :=
  (∃ reason, fault = .rejected reason) ∨ ∃ reason, fault = .remote reason

theorem RingFault.Own.reported {fault : RingFault} (h : fault.Own) : fault.remote.Reported := by
  cases fault with
  | invalidId reason => exact .inl ⟨_, rfl⟩
  | invalidRequest reason => exact .inl ⟨_, rfl⟩
  | joinFailed reason => exact .inr ⟨_, rfl⟩
  | lookupFailed reason => exact .inr ⟨_, rfl⟩
  | hopLimitExceeded id limit => exact .inr ⟨_, rfl⟩
  | transport lost => exact absurd rfl (h lost)

theorem Contact.own_of_required {c : Option Contact} {field : String} {fault : RingFault}
    (h : required c field = .error fault) : fault.Own := by
  cases c with
  | none =>
    obtain rfl : RingFault.missing field = fault := Except.error.inj h
    exact nofun
  | some c =>
    rw [required, node] at h
    cases hid : RingId.ofDecimal c.nodeId with
    | error e =>
      rw [hid] at h
      obtain rfl : RingFault.ofReadError e = fault := Except.error.inj h
      exact nofun
    | ok id =>
      simp only [hid] at h
      split at h
      · obtain rfl : RingFault.noAddress id = fault := Except.error.inj h
        exact nofun
      · cases h

/-- A request to join as the next member gets it. -/
def JoinRequest.passed (request : JoinRequest) : JoinRequest :=
  { request with hops := request.hops + 1 }

namespace Network

variable {net now : Network} {k : Nat}

/-! ## One member -/

/-- A member that asks on behalf of a lookup makes what it is told a fault of the lookup. -/
theorem own_of_lookup {t : Transport} {id : RingId} {hops : UInt32} {fault : RingFault}
    (h : (lookup t k id hops net).1 = .error fault) : fault.Own := by
  unfold lookup at h
  simp only at h
  split at h
  · cases h
  · split at h
    · obtain rfl := Except.error.inj h
      exact nofun
    · split at h
      · obtain rfl := Except.error.inj h
        exact nofun
      · exact Contact.own_of_required h

/-- Only of a join does a member pass a fault back that is not its own. -/
theorem own_of_answer {t : Transport} {m : Method} (hm : m ≠ .join) {request : m.Request}
    {fault : RingFault} (h : (answer t k m request net).1 = .error fault) : fault.Own := by
  cases m with
  | join => exact absurd rfl hm
  | successor =>
    rw [answer, answerSuccessor] at h
    split at h
    · obtain rfl := Except.error.inj h
      exact nofun
    · simp only at h
      split at h
      · cases h
      · split at h
        · next hl =>
          obtain rfl := Except.error.inj h
          exact own_of_lookup (congrArg Prod.fst hl)
        · cases h
  | stabilize => cases h
  | notify =>
    rw [answer, answerNotify] at h
    split at h
    · next hr =>
      obtain rfl := Except.error.inj h
      exact Contact.own_of_required hr
    · simp only at h
      split at h <;> cases h
  | check => cases h
  | leave =>
    rw [answer, answerLeave] at h
    split at h
    · next hr =>
      obtain rfl := Except.error.inj h
      exact Contact.own_of_required hr
    · split at h
      · next hp =>
        obtain rfl := Except.error.inj h
        exact Contact.own_of_required hp
      · cases h

/-- The newcomer of a request to join belongs between members further on, as far as the member at `k`
    knows. -/
def Misplaced (net : Network) (k : Nat) (request : JoinRequest) (next : Node) : Prop :=
  ∃ source, Contact.required request.requestingNode "requesting_node" = .ok source ∧
    source.id ≠ (net.self k).id ∧
    JoinPlace.choose (net.self k) (net.predecessor? k) (net.peerSuccessor? k) source.id
      = .elsewhere next

/-- The member at `k` turns a request to join away, with a fault of its own. -/
inductive Refusing (net : Network) (k : Nat) (request : JoinRequest) : RingFault → Prop where
  | unreadable {fault : RingFault} :
      Contact.required request.requestingNode "requesting_node" = .error fault →
      Refusing net k request fault
  | taken {source : Node} :
      Contact.required request.requestingNode "requesting_node" = .ok source →
      source.id = (net.self k).id → Refusing net k request (.idTaken source.id (net.self k))
  | exhausted {next : Node} :
      Misplaced net k request next → (net.member k).hopLimit ≤ request.hops →
      Refusing net k request
        (.hopLimitExceeded ((request.requestingNode.map (·.nodeId)).getD "") (net.member k).hopLimit)

/-- The member at `k` passes a request to join on to `next`. -/
structure PassingOn (net : Network) (k : Nat) (request : JoinRequest) (next : Node) : Prop where
  misplaced : Misplaced net k request next
  below : ¬(net.member k).hopLimit ≤ request.hops

theorem Refusing.own {request : JoinRequest} {fault : RingFault}
    (h : Refusing net k request fault) : fault.Own := by
  cases h with
  | unreadable hr => exact Contact.own_of_required hr
  | taken _ _ => exact nofun
  | exhausted _ _ => exact nofun

section Quiet

variable {request : JoinRequest} {fault : RingFault} {next : Node}

theorem Misplaced.of_quiet (h : Misplaced net k request next) (hq : Quiet net now) :
    Misplaced now k request next := by
  unfold Misplaced predecessor? peerSuccessor?
  rw [hq.table, hq.kept.self]
  exact h

theorem Refusing.of_quiet (h : Refusing net k request fault) (hq : Quiet net now) :
    Refusing now k request fault := by
  cases h with
  | unreadable hr => exact .unreadable hr
  | taken hr he =>
    rw [← hq.kept.self] at he ⊢
    exact .taken hr he
  | exhausted hm hh =>
    rw [← hq.member] at hh ⊢
    exact .exhausted (hm.of_quiet hq) hh

theorem PassingOn.of_quiet (h : PassingOn net k request next) (hq : Quiet net now) :
    PassingOn now k request next :=
  ⟨h.misplaced.of_quiet hq, by rw [hq.member]; exact h.below⟩

end Quiet

section Member

variable {t : Transport} {request : JoinRequest}

theorem answerJoin_of_refusing {fault : RingFault} (h : Refusing net k request fault) :
    (answerJoin t k request net).1 = .error fault := by
  cases h with
  | unreadable hr =>
    unfold answerJoin
    rw [hr]
  | taken hr he => rw [answerJoin_of_eq hr he]
  | exhausted hm hh =>
    obtain ⟨source, hr, hne, hplace⟩ := hm
    rw [answerJoin_eq hr hne, hplace]
    unfold forwardJoin
    exact congrArg Prod.fst (if_pos hh)

/-- What comes of a join that is passed on is passed back. -/
theorem answerJoin_of_passingOn {next : Node} (h : PassingOn net k request next) :
    ∃ net₁, Quiet net net₁ ∧ ∀ t : Transport, (answerJoin t k request net).1
      = (t .join next.endpoint request.passed net₁).1.mapError .transport := by
  obtain ⟨⟨source, hr, hne, hplace⟩, hh⟩ := h
  have hnote := quiet_note net (.joinElsewhere source (net.self k))
  refine ⟨_, hnote.trans (quiet_note _ (.joinForwarded next (request.hops + 1))), ?_⟩
  intro t
  have hforward : forwardJoin t k next request (net.note (.joinElsewhere source (net.self k)))
      = Prod.map (Except.mapError .transport) (fun net => net) _ := forwardJoin_eq hh
  rw [answerJoin_eq hr hne, hplace]
  exact congrArg Prod.fst hforward

/-- A member grants a request to join, turns it away or passes it on. -/
theorem answerJoin_cases (t : Transport) (k : Nat) (request : JoinRequest) (net : Network) :
    (∃ reply, (answerJoin t k request net).1 = .ok reply) ∨
    (∃ fault, Refusing net k request fault) ∨ ∃ next, PassingOn net k request next := by
  cases hr : Contact.required request.requestingNode "requesting_node" with
  | error fault => exact .inr (.inl ⟨fault, .unreadable hr⟩)
  | ok source =>
    by_cases he : source.id = (net.self k).id
    · exact .inr (.inl ⟨_, .taken hr he⟩)
    cases hplace : JoinPlace.choose (net.self k) (net.predecessor? k) (net.peerSuccessor? k)
        source.id with
    | lone => exact .inl ⟨_, by rw [answerJoin_eq hr he, hplace]⟩
    | ahead s => exact .inl ⟨_, by rw [answerJoin_eq hr he, hplace]⟩
    | behind p => exact .inl ⟨_, by rw [answerJoin_eq hr he, hplace]⟩
    | elsewhere next =>
      have hm : Misplaced net k request next := ⟨source, hr, he, hplace⟩
      by_cases hh : (net.member k).hopLimit ≤ request.hops
      · exact .inr (.inl ⟨_, .exhausted hm hh⟩)
      · exact .inr (.inr ⟨next, hm, hh⟩)

end Member

/-! ## Chains -/

/-- A request to join that is sent to an endpoint is passed on `n` times and then fails; the last member
    that passed it on, or else the sender, learns of it as `cause`. -/
inductive Rebuff (net : Network) : String → JoinRequest → Nat → TransportFault → Prop where
  /-- Nobody answers at the endpoint. -/
  | lost {endpoint : String} {request : JoinRequest} : net.find? endpoint = none →
      Rebuff net endpoint request 0 (.peerUnreachable endpoint)
  /-- The member that answers turns the request away. -/
  | refused {endpoint : String} {request : JoinRequest} {k : Nat} {fault : RingFault} :
      net.find? endpoint = some k → Refusing net k request fault →
      Rebuff net endpoint request 0 fault.remote
  /-- The member that answers passes the request on, and that fails. -/
  | passedOn {endpoint : String} {request : JoinRequest} {k n : Nat} {next : Node}
      {cause : TransportFault} :
      net.find? endpoint = some k → PassingOn net k request next →
      Rebuff net next.endpoint request.passed n cause →
      Rebuff net endpoint request (n + 1) cause

/-- What `cause` is taken for after `n` members have passed it back. -/
def passedBack : Nat → TransportFault → TransportFault
  | 0, cause => cause
  | n + 1, cause => (RingFault.transport (passedBack n cause)).remote

/-- Passing a fault back makes a lost peer of it, whatever it was. -/
theorem passedBack_succ (n : Nat) (cause : TransportFault) :
    passedBack (n + 1) cause = .peerUnreachable (passedBack n cause).message := rfl

theorem message_suffix_passedBack (n : Nat) (cause : TransportFault) :
    cause.message.toList <:+ (passedBack n cause).message.toList := by
  induction n with
  | zero => exact List.suffix_refl _
  | succ n ih => exact ih.trans (RingFault.message_suffix_remote (.transport (passedBack n cause)))

/-- Where the first member answers and does not pass the request on, the cause is a fault of its own. -/
theorem Rebuff.reported {endpoint : String} {request : JoinRequest} {cause : TransportFault}
    (h : Rebuff net endpoint request 0 cause) (hf : net.find? endpoint = some k) :
    cause.Reported := by
  cases h with
  | lost hnone => rw [hf] at hnone; cases hnone
  | refused _ hr => exact hr.own.reported

/-! ## Requests -/

section Requests

variable {limit d : Nat} {endpoint : String} {request : JoinRequest}

theorem dispatch_of_find? {t : Transport} (hf : net.find? endpoint = some k) (m : Method)
    (request : m.Request) :
    dispatch t m endpoint request net = arrived (answer t k m request net) := by
  rw [dispatch, hf]
  simp only
  rcases answer t k m request net with ⟨_ | _, _⟩ <;> rfl

theorem outgoing_eq_dispatch (hs : net.script = []) (d : Nat) (m : Method) (endpoint : String)
    (request : m.Request) :
    outgoing relay (d + 1) m endpoint request net
      = dispatch (outgoing relay d) m endpoint request (net.ask m endpoint request) := by
  cases hf : net.find? endpoint with
  | none =>
    have hf' : (net.ask m endpoint request).find? endpoint = none := hf
    rw [outgoing_eq_unreachable hs hf, dispatch, hf']
  | some k =>
    have hf' : (net.ask m endpoint request).find? endpoint = some k := hf
    rw [outgoing_of_find? hs hf, dispatch_of_find? hf']

/-- The error of an answer as it arrives. -/
theorem arrived_eq_error {α : Type} {p : Except RingFault α × Network} {lost : TransportFault} :
    (arrived p).1 = .error lost ↔ ∃ fault, p.1 = .error fault ∧ lost = fault.remote := by
  rcases p with ⟨fault | reply, net⟩
  · constructor
    · intro h
      exact ⟨fault, rfl, (Except.error.inj h).symm⟩
    · rintro ⟨_, ⟨⟩, rfl⟩
      rfl
  · constructor
    · exact nofun
    · rintro ⟨_, h, _⟩
      cases h

/-- A member that passes a request to join on takes one from what is left of the hops. -/
theorem hopsLeft_passingOn {next : Node} (hlim : ∀ k, (net.member k).hopLimit.toNat ≤ limit)
    (h : PassingOn net k request next) :
    hopsLeft limit .join request.passed + 1
      ≤ hopsLeft limit .join request := by
  have hlt : request.hops.toNat < (net.member k).hopLimit.toNat :=
    UInt32.lt_iff_toNat_lt.1 (UInt32.not_le.1 h.below)
  have hk := hlim k
  show limit - (request.hops + 1).toNat + 1 ≤ limit - request.hops.toNat
  rw [(not_limit_le hlt).2]
  omega

/-- A chain that fails is passed back to its start. -/
theorem dispatch_of_rebuff {n : Nat} {cause : TransportFault} (hs : net.script = [])
    (hlim : ∀ k, (net.member k).hopLimit.toNat ≤ limit) (h : Rebuff net endpoint request n cause)
    (hd : hopsLeft limit .join request ≤ d) (hq : Quiet net now) :
    (dispatch (outgoing relay d) .join endpoint request now).1 = .error (passedBack n cause) := by
  induction h generalizing d now with
  | lost hf => rw [dispatch, hq.kept.find?, hf]; rfl
  | refused hf hr =>
    rw [dispatch_of_find? ((hq.kept.find? _).trans hf), arrived_eq_error]
    exact ⟨_, answerJoin_of_refusing (hr.of_quiet hq), rfl⟩
  | passedOn hf hp _ ih =>
    obtain ⟨now₁, hq₁, ha⟩ := answerJoin_of_passingOn (hp.of_quiet hq)
    have hfall := hopsLeft_passingOn hlim hp
    obtain ⟨d, rfl⟩ : ∃ d', d = d' + 1 := ⟨d - 1, by omega⟩
    have hnow₁ := hq.trans hq₁
    rw [dispatch_of_find? ((hq.kept.find? _).trans hf), arrived_eq_error]
    refine ⟨_, ?_, rfl⟩
    rw [answer, ha, outgoing_eq_dispatch (hnow₁.script.trans hs),
      ih (by omega) (hnow₁.trans (quiet_ask ..))]
    rfl

/-- A request to join that fails has such a chain. -/
theorem rebuff_of_dispatch {lost : TransportFault} (hs : net.script = [])
    (hlim : ∀ k, (net.member k).hopLimit.toNat ≤ limit) (hd : hopsLeft limit .join request ≤ d)
    (hq : Quiet net now)
    (hfail : (dispatch (outgoing relay d) .join endpoint request now).1 = .error lost) :
    ∃ n cause, Rebuff net endpoint request n cause ∧ lost = passedBack n cause := by
  -- induction on the depth: a request that is passed on can be passed on once less
  induction d using Nat.strong_induction_on generalizing now endpoint request lost with
  | h d ih =>
  cases hf : net.find? endpoint with
  | none =>
    rw [dispatch, hq.kept.find?, hf] at hfail
    obtain rfl := Except.error.inj hfail
    exact ⟨0, _, .lost hf, rfl⟩
  | some k =>
    rw [dispatch_of_find? ((hq.kept.find? _).trans hf), arrived_eq_error] at hfail
    obtain ⟨fault, hanswer, rfl⟩ := hfail
    have hanswer : (answerJoin (outgoing relay d) k request now).1 = .error fault := hanswer
    rcases answerJoin_cases (outgoing relay d) k request now with
      ⟨reply, hgrant⟩ | ⟨refusal, hr⟩ | ⟨next, hp⟩
    · rw [hgrant] at hanswer
      cases hanswer
    · rw [answerJoin_of_refusing hr] at hanswer
      obtain rfl := Except.error.inj hanswer
      exact ⟨0, _, .refused hf (hr.of_quiet hq.symm), rfl⟩
    · obtain ⟨now₁, hq₁, ha⟩ := answerJoin_of_passingOn hp
      have hp := hp.of_quiet hq.symm
      have hnow₁ := hq.trans hq₁
      have hfall := hopsLeft_passingOn hlim hp
      obtain ⟨d, rfl⟩ : ∃ d', d = d' + 1 := ⟨d - 1, by omega⟩
      rw [ha, outgoing_eq_dispatch (hnow₁.script.trans hs)] at hanswer
      generalize hask : (now₁.ask .join next.endpoint request.passed) = asked at hanswer
      cases hfurther : (dispatch (outgoing relay d) .join next.endpoint request.passed asked).1 with
      | ok reply =>
        rw [hfurther] at hanswer
        cases hanswer
      | error further =>
        rw [hfurther] at hanswer
        obtain rfl := Except.error.inj hanswer
        have hasked : Quiet net asked := hask ▸ hnow₁.trans (quiet_ask ..)
        obtain ⟨n, cause, hrebuff, rfl⟩ := ih d (Nat.lt_succ_self d) (by omega) hasked hfurther
        exact ⟨n + 1, cause, .passedOn hf hp hrebuff, rfl⟩

end Requests

/-! ## The network -/

/-- What a call through `send` brings, where the member at `k` answers at the endpoint. -/
theorem dispatch_of_send {endpoint : String} (hs : net.script = []) {send : Transport}
    (hsend : send = transport ∨ send = direct) (m : Method) (request : m.Request) :
    ∃ d now, net.callDepth - 1 ≤ d ∧ Quiet net now ∧
      (send m endpoint request net).1 = (dispatch (outgoing relay d) m endpoint request now).1 := by
  rcases hsend with rfl | rfl
  · refine ⟨net.callDepth - 1, net.ask m endpoint request, Nat.le_refl _, quiet_ask .., ?_⟩
    exact congrArg Prod.fst (outgoing_eq_dispatch hs (net.callDepth - 1) m endpoint request)
  · exact ⟨net.callDepth, net, Nat.sub_le .., .refl net, rfl⟩

/-- Where a member answers, a request of any kind but a join fails only with a fault that the member
    reports. A join fails exactly where a chain of joins does, and that is reported, too, where the member
    is itself the end of the chain. Otherwise the cause was passed back, and it arrives as a peer that cannot
    be reached, with the text of the cause at its end. -/
theorem faults_of_answering {endpoint : String} (hs : net.script = [])
    (hf : net.find? endpoint = some k) {send : Transport}
    (hsend : send = transport ∨ send = direct) :
    (∀ m request fault, m ≠ .join → (send m endpoint request net).1 = .error fault →
      fault.Reported) ∧
    (∀ request fault, (send .join endpoint request net).1 = .error fault ↔
      ∃ n cause, Rebuff net endpoint request n cause ∧ fault = passedBack n cause) ∧
    (∀ request cause, Rebuff net endpoint request 0 cause → cause.Reported) ∧
    ∀ n cause, ∃ reason, passedBack (n + 1) cause = .peerUnreachable reason ∧
      cause.message.toList <:+ reason.toList := by
  refine ⟨?_, ?_, fun _ _ h => h.reported hf, ?_⟩
  · intro m request fault hm hfail
    obtain ⟨d, now, -, hq, hnow⟩ := dispatch_of_send hs hsend m request
    rw [hnow, dispatch_of_find? ((hq.kept.find? _).trans hf), arrived_eq_error] at hfail
    obtain ⟨own, hown, rfl⟩ := hfail
    exact (own_of_answer hm hown).reported
  · intro request fault
    obtain ⟨d, now, hd, hq, hnow⟩ := dispatch_of_send hs hsend .join request
    have hleft : hopsLeft (net.callDepth - 1) .join request ≤ d :=
      Nat.le_trans (Nat.sub_le ..) hd
    rw [hnow]
    constructor
    · exact rebuff_of_dispatch hs net.hopLimit_le hleft hq
    · rintro ⟨n, cause, hrebuff, rfl⟩
      exact dispatch_of_rebuff hs net.hopLimit_le hrebuff hleft hq
  · intro n cause
    exact ⟨_, passedBack_succ n cause, message_suffix_passedBack n cause⟩

/-- A request to join in the name of a node that is not on the network, at the point of the member `a`. -/
def impostor : JoinRequest := { requestingNode := some ⟨"1", "e"⟩ }

theorem faults_of_answering_trio : trio.find? "b" = some 1 ∧ ∃ n cause,
    Rebuff trio "b" impostor (n + 1) cause ∧
    (transport .join "b" impostor trio).1 = .error (passedBack (n + 1) cause) ∧
    ∃ reason, passedBack (n + 1) cause = .peerUnreachable reason ∧
      cause.message.toList <:+ reason.toList := by
  have hb : trio.find? "b" = some 1 := by decide +kernel
  obtain ⟨-, hjoin, hreported, hpassed⟩ :=
    faults_of_answering (show trio.script = [] from rfl) hb (.inl (Eq.refl transport))
  have hfail : (transport .join "b" impostor trio).1 = .error (.peerUnreachable
      ("Peer unreachable: Request rejected: " ++ (RingFault.idTaken .one ⟨.one, "a"⟩).message)) := by
    decide +kernel
  obtain ⟨n, cause, hrebuff, hcause⟩ := (hjoin _ _).1 hfail
  cases n with
  | zero =>
    -- the member at `b` did not find that fault itself
    obtain rfl := hcause
    rcases hreported _ _ hrebuff with ⟨_, h⟩ | ⟨_, h⟩ <;> cases h
  | succ n => exact ⟨hb, n, cause, hrebuff, hcause ▸ hfail, hpassed n cause⟩

/-- The member at `a` refuses that request, and a sender that asks `a` learns so. A sender that asks `c`,
    which passes the request on to `a`, learns that a peer cannot be reached, though both answered. -/
theorem refused_reads_unreachable_trio : ∃ reason,
    trio.script = [] ∧ trio.find? "a" = some 0 ∧ trio.find? "c" = some 2 ∧
    (direct .join "a" impostor trio).1 = .error (.rejected reason) ∧
    (direct .join "c" impostor trio).1 = .error (.peerUnreachable ("Request rejected: " ++ reason)) :=
  ⟨(RingFault.idTaken .one ⟨.one, "a"⟩).message, by decide +kernel⟩

end Network

end RingOverlay
