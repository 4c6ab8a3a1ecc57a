import RingOverlay.Proofs.Network.Acquaintance
import RingOverlay.Proofs.Network.Depth

/-!
# `Network.RootCause` — a lookup that fails tells why

A lookup that is forwarded fails where its chain of requests ends: at an endpoint where nobody answers, or
at a member that has a fault of its own. On the way back each hop puts the fault into a status, reads the
status as a fault of the call and reports that as a fault of its own lookup. It adds words in front every
time and drops none, so the text that arrives ends with the text of the fault at the end of the chain.

## Contents
- **Texts.** `RingFault.message_suffix_remote`.
- **Chains.** `Strands`; `Addressed`, which keeps the answers readable.
- **One member.** `Search`, `Told`, `lookup_search`.
- **Requests.** `told_of_search`; `told_outgoing`, by induction on the depth.
- **The network.** `lookup_root_cause`.
-/

namespace RingOverlay

/-! ## Texts -/

theorem suffix_toList_append (context text : String) :
    text.toList <:+ (context ++ text).toList := by
  rw [String.toList_append]
  exact List.suffix_append ..

/-- No fault of a member is taken for a timeout, which has a text of its own. -/
theorem RingFault.message_suffix_remote (fault : RingFault) :
    fault.message.toList <:+ fault.remote.message.toList := by
  cases fault with
  | invalidId reason => exact suffix_toList_append "Request rejected: " _
  | invalidRequest reason => exact suffix_toList_append "Request rejected: " _
  | joinFailed reason => exact suffix_toList_append "Remote failure: " _
  | lookupFailed reason => exact suffix_toList_append "Remote failure: " _
  | hopLimitExceeded id limit => exact suffix_toList_append "Remote failure: " _
  | transport fault => exact suffix_toList_append "Peer unreachable: " _

namespace Network

variable {net now : Network} {k : Nat} {id : RingId}

/-! ## Chains -/

/-- The request in which the member at `k` passes on a lookup that has been forwarded `hops` times. -/
def passing (net : Network) (k : Nat) (id : RingId) (hops : UInt32) : SuccessorRequest :=
  ⟨some (net.self k).contact, id.decimal, hops + 1⟩

/-- A lookup that is sent to an endpoint as `request` fails with the text `cause` at the end of a chain of
    requests, of which `sent` is the record, the latest first. -/
inductive Strands (net : Network) : String → SuccessorRequest → List Call → String → Prop where
  /-- Nobody answers at the endpoint. -/
  | unreachable {endpoint : String} {request : SuccessorRequest} : net.find? endpoint = none →
      Strands net endpoint request [⟨.successor, endpoint, request⟩]
        (TransportFault.peerUnreachable endpoint).message
  /-- The member that answers has a fault to report, whatever transport it has. -/
  | raised {endpoint : String} {request : SuccessorRequest} {k : Nat} {fault : RingFault} :
      net.find? endpoint = some k →
      (∀ t, answer t k .successor request net = (.error fault, net)) →
      Strands net endpoint request [⟨.successor, endpoint, request⟩] fault.message
  /-- The member that answers passes the lookup on to the next node of its route, and that fails. -/
  | passedOn {endpoint : String} {request : SuccessorRequest} {k : Nat} {id : RingId} {next : Node}
      {sent : List Call} {cause : String} :
      net.find? endpoint = some k → RingId.ofDecimal request.id = .ok id → id ≠ (net.self k).id →
      (net.table k).route (net.self k) id = .forward next → ¬(net.member k).hopLimit ≤ request.hops →
      Strands net next.endpoint (net.passing k id request.hops) sent cause →
      Strands net endpoint request (sent ++ [⟨.successor, endpoint, request⟩]) cause

/-- Every member has an endpoint, and so has every node that a member knows. -/
structure Addressed (net : Network) : Prop where
  self : ∀ k < net.members.length, (net.self k).endpoint ≠ ""
  known : ∀ k < net.members.length, (net.table k).All fun n => n.endpoint ≠ ""

/-! ## One member -/

/-- What comes of a lookup at the member at `k`. -/
inductive Search (net now : Network) (k : Nat) (id : RingId) (hops : UInt32) :
    Except RingFault Node × Network → Prop where
  | found (n : Node) (now' : Network) : n.endpoint ≠ "" → Search net now k id hops (.ok n, now')
  /-- The member may not pass the lookup on, and sends nothing. -/
  | exhausted (next : Node) : (net.table k).route (net.self k) id = .forward next →
      (net.member k).hopLimit ≤ hops →
      Search net now k id hops
        (.error (.hopLimitExceeded id.decimal (net.member k).hopLimit), now)
  /-- The member passes the lookup on, and that fails. -/
  | stranded (next : Node) (sent : List Call) (cause reason : String) (now' : Network) :
      (net.table k).route (net.self k) id = .forward next →
      ¬(net.member k).hopLimit ≤ hops →
      Strands net next.endpoint (net.passing k id hops) sent cause →
      now'.calls = sent ++ now.calls → cause.toList <:+ reason.toList →
      Search net now k id hops (.error (.lookupFailed reason), now')

/-- What comes of a request for an owner. -/
inductive Told (net now : Network) (endpoint : String) (request : SuccessorRequest) :
    Except TransportFault SuccessorResponse × Network → Prop where
  | found (n : Node) (now' : Network) : n.endpoint ≠ "" →
      Told net now endpoint request (.ok ⟨some n.contact⟩, now')
  | stranded (fault : TransportFault) (sent : List Call) (cause : String) (now' : Network) :
      Strands net endpoint request sent cause → now'.calls = sent ++ now.calls →
      cause.toList <:+ fault.message.toList →
      Told net now endpoint request (.error fault, now')

/-- A member that passes a lookup on wraps what it is told, and else it sends nothing. -/
theorem lookup_search {t : Transport} {hops : UInt32} (ha : Addressed net)
    (hk : k < net.members.length) (hq : Quiet net now)
    (ht : ∀ next : Node, ¬(net.member k).hopLimit ≤ hops →
      Told net (now.note (.lookupForwarded id next (hops + 1))) next.endpoint (net.passing k id hops)
        (t .successor next.endpoint (net.passing k id hops)
          (now.note (.lookupForwarded id next (hops + 1))))) :
    Search net now k id hops (lookup t k id hops now) := by
  have hroute : (now.table k).route (now.self k) id = (net.table k).route (net.self k) id := by
    rw [hq.table, hq.kept.self]
  cases hr : (net.table k).route (net.self k) id with
  | owner n =>
    rw [lookup_of_owner (hroute.trans hr)]
    exact .found n now ((ha.known k hk).owner_of_route (ha.self k hk) hr)
  | forward next =>
    by_cases hh : (net.member k).hopLimit ≤ hops
    · have hh' : (now.member k).hopLimit ≤ hops := by rwa [hq.kept.hopLimit]
      rw [lookup_of_limit (hroute.trans hr) hh', hq.kept.hopLimit]
      exact .exhausted next hr hh
    · have hh' : ¬(now.member k).hopLimit ≤ hops := by rwa [hq.kept.hopLimit]
      have hask := ht next hh
      have hpass : net.passing k id hops = now.passing k id hops := by
        rw [passing, passing, hq.kept.self]
      generalize htold : t .successor next.endpoint (net.passing k id hops)
        (now.note (.lookupForwarded id next (hops + 1))) = told at hask
      rw [hpass] at htold
      cases hask with
      | found n now' hn =>
        rw [lookup_of_forward (hroute.trans hr) hh' htold, Contact.required_contact hn]
        exact .found n now' hn
      | stranded fault sent cause now' hs hcalls hcause =>
        rw [lookup_of_error (hroute.trans hr) hh' htold]
        exact .stranded next sent cause _ now' hr hh hs hcalls
          (hcause.trans (suffix_toList_append _ _))

/-! ## Requests -/

/-- A member that is asked for the owner of a point tells what its own lookup comes to. -/
theorem told_of_search {t : Transport} {endpoint : String} {request : SuccessorRequest}
    (ha : Addressed net) (hf : net.find? endpoint = some k)
    (hid : RingId.ofDecimal request.id = .ok id)
    (hq : Quiet net (now.ask .successor endpoint request))
    (hsearch : Search net (now.ask .successor endpoint request) k id request.hops
      (lookup t k id request.hops (now.ask .successor endpoint request))) :
    Told net now endpoint request
      (arrived (answer t k .successor request (now.ask .successor endpoint request))) := by
  have hk := lt_length_of_find? hf
  show Told net now endpoint request
    (arrived (answerSuccessor t k request (now.ask .successor endpoint request)))
  by_cases he : id = (net.self k).id
  · have he' := he
    rw [← hq.kept.self] at he'
    rw [answerSuccessor_of_eq request hid he', hq.kept.self]
    exact .found (net.self k) _ (ha.self k hk)
  have he' := he
  rw [← hq.kept.self] at he'
  generalize hlook : lookup t k id request.hops (now.ask .successor endpoint request) = p at hsearch
  cases hsearch with
  | found n now' hn =>
    rw [answerSuccessor_of_lookup request hid he' hlook]
    exact .found n now' hn
  | exhausted next hr hh =>
    rw [answerSuccessor_of_error request hid he' hlook]
    refine .stranded _ [⟨.successor, endpoint, request⟩] _ _ (.raised hf ?_) rfl
      (RingFault.message_suffix_remote _)
    intro t
    exact answerSuccessor_of_error request hid he (lookup_of_limit hr hh)
  | stranded next sent cause reason now' hr hh hs hcalls hcause =>
    rw [answerSuccessor_of_error request hid he' hlook]
    refine .stranded _ (sent ++ [⟨.successor, endpoint, request⟩]) cause now'
      (.passedOn hf hid he hr hh hs) ?_ ?_
    · rw [hcalls, List.append_assoc]
      rfl
    · exact (hcause.trans (suffix_toList_append "Lookup failed: " reason)).trans
        (RingFault.message_suffix_remote (.lookupFailed reason))

/-- A lookup that is passed on can be passed on less often than before. -/
theorem hopsLeft_passing_lt {limit : Nat} {hops : UInt32} (hlim : (net.member k).hopLimit.toNat ≤ limit)
    (hh : ¬(net.member k).hopLimit ≤ hops) :
    hopsLeft limit .successor (net.passing k id hops) < limit - hops.toNat := by
  have hlt : hops.toNat < (net.member k).hopLimit.toNat :=
    UInt32.lt_iff_toNat_lt.1 (UInt32.not_le.1 hh)
  show limit - (hops + 1).toNat < limit - hops.toNat
  rw [(not_limit_le hlt).2]
  omega

/-- A request tells an owner, or the end of a chain on which it failed. -/
theorem told_outgoing {limit : Nat} (hs : net.script = []) (ha : Addressed net)
    (hlim : ∀ k, (net.member k).hopLimit.toNat ≤ limit) {d : Nat} {endpoint : String}
    {request : SuccessorRequest} (hid : RingId.ofDecimal request.id = .ok id)
    (hd : hopsLeft limit .successor request < d) (hq : Quiet net now) :
    Told net now endpoint request (outgoing relay d .successor endpoint request now) := by
  -- induction on the depth: a request that is passed on can be passed on once less
  induction d generalizing now endpoint request with
  | zero => omega
  | succ d ih =>
    have hsnow : now.script = [] := hq.script.trans hs
    have hask := hq.trans (quiet_ask now .successor endpoint request)
    cases hf : net.find? endpoint with
    | none =>
      have hfnow : now.find? endpoint = none := (hq.kept.find? endpoint).trans hf
      rw [outgoing_eq_unreachable hsnow hfnow]
      exact .stranded _ _ _ _ (.unreachable hf) rfl (List.suffix_refl _)
    | some k =>
      have hfnow : now.find? endpoint = some k := (hq.kept.find? endpoint).trans hf
      rw [outgoing_of_find? hsnow hfnow]
      refine told_of_search ha hf hid hask (lookup_search ha (lt_length_of_find? hf) hask ?_)
      intro next hh
      have hfall : hopsLeft limit .successor (net.passing k id request.hops)
          < hopsLeft limit .successor request := hopsLeft_passing_lt (hlim k) hh
      exact ih (RingId.ofDecimal_decimal id) (by omega) (hask.trans (quiet_note _ _))

/-! ## The network -/

/-- A lookup that was forwarded at least once and fails has sent a chain of requests, whose end is an
    endpoint at which nobody answers or a member with a fault of its own. The text of the fault that the
    lookup reports ends with the text of the fault at that end. -/
theorem lookup_root_cause (hs : net.script = []) (ha : Addressed net) (hk : k < net.members.length)
    {fault : RingFault} {net' : Network} (hfail : lookup transport k id 0 net = (.error fault, net'))
    (hsent : net'.calls ≠ net.calls) :
    ∃ next sent cause reason, (net.table k).route (net.self k) id = .forward next ∧
      Strands net next.endpoint (net.passing k id 0) sent cause ∧
      net'.calls = sent ++ net.calls ∧ fault = .lookupFailed reason ∧
      cause.toList <:+ fault.message.toList := by
  have hsearch : Search net net k id 0 (lookup transport k id 0 net) := by
    rw [lookup_transport]
    refine lookup_search ha hk (.refl net) ?_
    intro next hh
    have hleft : hopsLeft (net.callDepth - 1) .successor (net.passing k id 0)
        < net.callDepth - 1 - (0 : UInt32).toNat := hopsLeft_passing_lt (net.hopLimit_le k) hh
    exact told_outgoing hs ha net.hopLimit_le (RingId.ofDecimal_decimal id) (by omega)
      (quiet_note net _)
  rw [hfail] at hsearch
  cases hsearch with
  | exhausted => exact absurd rfl hsent
  | stranded next sent cause reason _ hr _ hstrands hcalls hcause =>
    exact ⟨next, sent, cause, reason, hr, hstrands, hcalls, rfl,
      hcause.trans (suffix_toList_append "Lookup failed: " reason)⟩

/-- A table with an entry in slot 0 only. -/
def signpost (n : Node) : Table where
  fingers := some n :: List.replicate 255 none
  length_fingers := by rw [List.length_cons, List.length_replicate]
  predecessor := none

/-- Two members that each take the other one for the next one ahead, at a point where it is not. They allow
    three hops and four. -/
def circling : Network where
  members :=
    [{ self := ⟨.ofNat 10, "a"⟩, hopLimit := 3, joinThrough := none, fingersPerTick := 1
       table := signpost ⟨.ofNat 11, "b"⟩ },
     { self := ⟨.ofNat 20, "b"⟩, hopLimit := 4, joinThrough := none, fingersPerTick := 1
       table := signpost ⟨.ofNat 21, "a"⟩ }]
  registry := [("a", 0), ("b", 1)]

/-- Without the second member the first request already finds nobody. -/
example : (lookup transport 0 (.ofNat 30) 0 (circling.drop 1)).1
    = .error (.lookupFailed ((RingId.ofNat 30).short ++ " via " ++ (RingId.ofNat 11).short
        ++ "@b: Peer unreachable: b")) := by decide +kernel

theorem all_signpost {P : Node → Prop} {n : Node} (hn : P n) : (signpost n).All P where
  finger i m hm := by
    cases i with
    | zero =>
      obtain rfl : n = m := Option.some_inj.1 hm
      exact hn
    | succ i =>
      rw [Table.finger, signpost, List.getElem?_cons_succ, List.getElem?_replicate] at hm
      split at hm
      · cases hm
      · cases hm
  predecessor := nofun

theorem addressed_circling : Addressed circling where
  self := by decide
  known k hk := by
    have hk : k < 2 := hk
    obtain rfl | rfl : k = 0 ∨ k = 1 := by omega
    · exact all_signpost (by decide)
    · exact all_signpost (by decide)

/-- A lookup that two members pass to each other until the first one may not pass it on any more. -/
theorem lookup_root_cause_circling : ∃ fault net',
    lookup transport 0 (.ofNat 30) 0 circling = (.error fault, net') ∧
    ∃ next sent cause reason,
      (circling.table 0).route (circling.self 0) (.ofNat 30) = .forward next ∧
      Strands circling next.endpoint (circling.passing 0 (.ofNat 30) 0) sent cause ∧
      net'.calls = sent ++ circling.calls ∧ fault = .lookupFailed reason ∧
      cause.toList <:+ fault.message.toList := by
  have hfails : (lookup transport 0 (.ofNat 30) 0 circling).1.isOk = false := by decide +kernel
  have hsent : (lookup transport 0 (.ofNat 30) 0 circling).2.calls.length = 4 := by decide +kernel
  cases h : lookup transport 0 (.ofNat 30) 0 circling with
  | mk result net' =>
    rw [h] at hfails hsent
    cases result with
    | ok owner => cases hfails
    | error fault =>
      have hcalls : net'.calls ≠ circling.calls := by
        intro he
        rw [he] at hsent
        cases hsent
      have hroot := lookup_root_cause rfl addressed_circling (by decide) h hcalls
      exact ⟨fault, net', rfl, hroot⟩

end Network

end RingOverlay
