import RingOverlay.Proofs.Network.Depth

/-!
# `Network.Refusal` — a request that fails changes no member

A member that passes a request on writes nothing before the answer comes, and where the answer is an
error it has nothing to write. The one member that grants a request is the last to have been asked. So
an error on the way back means that no member on the way has changed: not its table, not what its
subscriber was told. Lookups change no member even where they succeed, and a slot is written only after
the lookup for it has come back.

## Contents
- **Attempts.** `Spared`.
- **Steps.** `Harmless` transports; `lookup_members`, `answer_spared`, `fixFinger_spared` over them.
- **Requests.** `Harmless.relay` for one level more, and from it `harmless_transport`.
- **The network.** `refused_changes_nothing`.
-/

namespace RingOverlay.Network

variable {net : Network} {t : Transport} {k : Nat}

/-! ## Attempts -/

/-- An attempt that began at `net` changed no member if it failed. -/
def Spared {ε α : Type} (net : Network) (p : Except ε α × Network) : Prop :=
  ∀ fault, p.1 = .error fault → p.2.members = net.members

section Spared

variable {ε α : Type} {p : Except ε α × Network}

theorem Spared.of_members (h : p.2.members = net.members) : Spared net p := fun _ _ => h

theorem Spared.after {net₁ : Network} (h : Spared net₁ p) (hq : Quiet net net₁) : Spared net p :=
  fun fault hp => (h fault hp).trans hq.members

theorem spared_ok (net net' : Network) (a : α) : Spared net ((.ok a, net') : Except ε α × Network) :=
  nofun

/-- What is passed back has failed only if what came back had. -/
theorem Spared.map_fst {ε' : Type} {back : Except ε α → Except ε' α} (h : Spared net p)
    (hback : ∀ a, back (.ok a) = .ok a) : Spared net (Prod.map back (fun net => net) p) := by
  rcases p with ⟨fault | a, net'⟩
  · exact .of_members (h fault rfl)
  · rw [Prod.map, hback]
    exact spared_ok net net' a

theorem Spared.arrived {p : Except RingFault α × Network} (h : Spared net p) :
    Spared net (arrived p) := by
  rcases p with ⟨fault | a, net'⟩
  · exact .of_members (h fault rfl)
  · exact spared_ok net net' a

end Spared

/-! ## Steps -/

/-- A request that fails changes no member, and a lookup never does. -/
structure Harmless (t : Transport) : Prop where
  spared : ∀ m endpoint request net, Spared net (t m endpoint request net)
  looked : ∀ endpoint request net, (t .successor endpoint request net).2.members = net.members

theorem lookup_members (ht : Harmless t) (k : Nat) (id : RingId) (hops : UInt32) (net : Network) :
    (lookup t k id hops net).2.members = net.members := by
  rcases lookup_onward net k id hops with ⟨result, hl⟩ | ⟨-, next, sender, n, back, hl⟩
  · rw [hl]
  · rw [hl]
    exact ht.looked next.endpoint ⟨sender, id.decimal, hops + 1⟩ (net.note n)

theorem answerSuccessor_members (ht : Harmless t) (k : Nat) (request : SuccessorRequest)
    (net : Network) : (answer t k .successor request net).2.members = net.members := by
  cases answer_onward net k .successor request with
  | settled _ _ ha _ hq =>
    rw [ha]
    exact hq.members
  | granted _ _ hm => exact absurd rfl hm
  | onward n next net₁ _ _ _ hq ha _ =>
    rw [ha]
    exact (ht.looked n.endpoint next net₁).trans hq.members

/-- A member that answers with a fault has not changed, and neither has any that it asked. -/
theorem answer_spared (ht : Harmless t) (k : Nat) (m : Method) (request : m.Request) (net : Network) :
    Spared net (answer t k m request net) := by
  cases answer_onward net k m request with
  | settled _ _ ha _ hq =>
    rw [ha]
    exact .of_members hq.members
  | granted reply net' _ ha =>
    rw [ha]
    exact spared_ok net net' reply
  | onward n next net₁ back _ _ hq ha hback =>
    rcases hback with rfl | hback
    · exact .of_members (answerSuccessor_members ht k request net)
    · -- what was granted further on is passed back as granted
      rw [ha]
      exact ((ht.spared m n.endpoint next net₁).map_fst hback).after hq

theorem fixFinger_spared (ht : Harmless t) (k index : Nat) (net : Network) :
    Spared net (fixFinger t k index net) := by
  unfold fixFinger
  split
  · next hi =>
    have hl := lookup_members ht k
      ((net.self k).id + fingerOffset (net.peerSuccessor? k).isSome ⟨index, hi⟩) 0 net
    simp only
    split
    · next heq =>
      rw [heq] at hl
      exact .of_members hl
    · exact spared_ok _ _ _
  · exact .of_members rfl

/-! ## Requests -/

theorem harmless_silent : Harmless silent where
  spared _ _ _ _ := .of_members rfl
  looked _ _ _ := rfl

/-- One level of requests more. -/
theorem Harmless.relay (ht : Harmless t) : Harmless (relay (dispatch t)) where
  spared m endpoint request net := by
    have hask := quiet_ask net m endpoint request
    cases relay_travelling net m endpoint request with
    | scripted _ _ _ hr =>
      rw [hr]
      exact .of_members rfl
    | lost hr =>
      rw [hr]
      exact .of_members hask.members
    | reaching k _ hr =>
      rw [hr]
      exact (answer_spared ht k m request _).arrived.after hask
  looked endpoint request net := by
    have hask := quiet_ask net .successor endpoint request
    cases relay_travelling net .successor endpoint request with
    | scripted _ _ _ hr => rw [hr]; rfl
    | lost hr =>
      rw [hr]
      exact hask.members
    | reaching k _ hr =>
      rw [hr, arrived_snd]
      exact (answerSuccessor_members ht k request _).trans hask.members

theorem harmless_outgoing (d : Nat) : Harmless (outgoing relay d) := by
  induction d with
  | zero => exact harmless_silent
  | succ d ih => exact ih.relay

theorem harmless_transport : Harmless transport where
  spared m endpoint request net := (harmless_outgoing net.callDepth).spared m endpoint request net
  looked endpoint request net := (harmless_outgoing net.callDepth).looked endpoint request net

/-! ## The network -/

/-- Whatever the tables of members hold, a request that is answered with a fault, be it well formed or
    not, has changed no member, and neither has a slot that could not be refreshed. -/
theorem refused_changes_nothing (net : Network) :
    (∀ k m request fault net',
      answer transport k m request net = (.error fault, net') → net'.members = net.members) ∧
    ∀ k index fault net',
      fixFinger transport k index net = (.error fault, net') → net'.members = net.members := by
  constructor
  · intro k m request fault net' h
    have hs := answer_spared harmless_transport k m request net
    rw [h] at hs
    exact hs fault rfl
  · intro k index fault net' h
    have hs := fixFinger_spared harmless_transport k index net
    rw [h] at hs
    exact hs fault rfl

/-- A request to join at the first of three members, which passes it on to the second one, whose point it
    gives. And a slot that no table has. -/
theorem refused_changes_nothing_trio :
    (∃ fault net', answer transport 0 .join ⟨some ⟨"5", "e"⟩, 0⟩ trio = (.error fault, net') ∧
      net'.members = trio.members) ∧
    ∃ fault net', fixFinger transport 0 256 trio = (.error fault, net') ∧
      net'.members = trio.members := by
  constructor
  · have hfails : (answer transport 0 .join ⟨some ⟨"5", "e"⟩, 0⟩ trio).1.isOk = false := by
      decide +kernel
    cases h : answer transport 0 .join ⟨some ⟨"5", "e"⟩, 0⟩ trio with
    | mk result net' =>
      rw [h] at hfails
      cases result with
      | ok reply => cases hfails
      | error fault =>
        have hm := (refused_changes_nothing trio).1 0 .join ⟨some ⟨"5", "e"⟩, 0⟩ fault net' h
        exact ⟨fault, net', rfl, hm⟩
  · exact ⟨.fingerOutOfRange 256, trio, rfl,
      (refused_changes_nothing trio).2 0 256 (.fingerOutOfRange 256) trio rfl⟩

end RingOverlay.Network
