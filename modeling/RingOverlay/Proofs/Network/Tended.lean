import RingOverlay.Proofs.Network.Fingers
import RingOverlay.Proofs.Network.Formed

/-!
# `Network.Tended` — slots that are refreshed while the ring forms

While newcomers come in and rounds are still to be run, a lookup may end at the wrong member. A refresh
takes its answer for the owner and, by compaction, puts it into every lower slot that shared the entry
replaced. Slot 0 is one of them where the slot that is refreshed holds the successor, too. Otherwise a
refresh leaves the successor alone, and a slot does not come to replace it while the successor is as far
ahead as the slot reaches.

What goes wrong in this way goes wrong inside the ring: every entry is another member, so no request fails
for want of an answer.

## Contents
- **Lookups.** `BelievedOwner`, `LooseRing.lookup_cases`.
- **Refreshes.** `LooseRing.fixFinger_cases`, `LooseRing.fixFinger`.
- **Runs.** `Tick`, `Tended`, and the invariant `Outline`.
- **The successor.** `Tended.successor_fixFinger`.
- **An instance.** `crowd`, where a refresh puts the predecessor in the successor's place.
-/

namespace RingOverlay.Network

open RingOverlay.Ring (Links)
open RingOverlay.Ring.Links (Fits)

variable {net net' : Network} {ms : List Nat} {b k : Nat} {L : Links} {id : RingId}

/-! ## Lookups -/

/-- A member that a lookup may take for the owner of a point: it is there, or it is the successor of a
    member from which the point lies on the way to it. -/
def BelievedOwner (net : Network) (ms : List Nat) (id : RingId) (o : Nat) : Prop :=
  net.point o = id ∨ ∃ x ∈ ms, (net.table x).successor? = some (net.self o) ∧
    id.betweenIncl (net.point x) (net.point o) = true

theorem BelievedOwner.of_quiet {o : Nat} (h : BelievedOwner net' ms id o) (hq : Quiet net net') :
    BelievedOwner net ms id o := by
  unfold BelievedOwner at h
  rw [hq.table, hq.kept.point, hq.kept.self] at h
  exact h

/-- A member takes its successor for the owner of what lies on the way to it, and asks another member
    about everything else. -/
theorem LooseRing.route (h : LooseRing net ms L) (hk : k ∈ ms) (id : RingId) :
    (id.betweenIncl (net.point k) (net.point (L.succ k)) = true ∧
      (net.table k).route (net.self k) id = .owner (net.self (L.succ k))) ∨
    (¬id.betweenIncl (net.point k) (net.point (L.succ k)) = true ∧
      ∃ l ∈ ms, (net.table k).route (net.self k) id = .forward (net.self l)) := by
  unfold Table.route Table.Route.choose
  rw [(h.linked k hk).successor, Option.getD_some]
  by_cases hid : id.betweenIncl (net.point k) (net.point (L.succ k)) = true
  · exact .inl ⟨hid, if_pos hid⟩
  · refine .inr ⟨hid, ?_⟩
    have hid' : ¬id.betweenIncl (net.self k).id (net.self (L.succ k)).id = true := hid
    rw [if_neg hid']
    by_cases hc : (net.table k).closestPreceding (net.self k) id = net.self k
    · exact ⟨_, (h.loose.succ k hk).1, by rw [if_pos hc]⟩
    · rcases Table.closestPreceding_eq (t := net.table k) rfl with he | ⟨-, i, hi⟩
      · exact absurd he hc
      · obtain ⟨l, hl, -, he⟩ := (h.linked k hk).finger i _ hi
        exact ⟨l, hl, by rw [if_neg hc, he]⟩

/-- A lookup fails, or it comes to a member that another one believes to be the owner. It changes nothing
    in either case. -/
theorem LooseRing.lookup_cases (h : LooseRing net ms L) (hk : k ∈ ms) (id : RingId) (hops : UInt32)
    (d : Nat) :
    (∃ fault net', lookup (outgoing relay d) k id hops net = (.error fault, net') ∧ Quiet net net') ∨
    (∃ o ∈ ms, ∃ net', lookup (outgoing relay d) k id hops net = (.ok (net.self o), net') ∧
      Quiet net net' ∧ BelievedOwner net ms id o) := by
  -- induction on the depth: the member that is asked next may ask one level less deep
  induction d using Nat.strong_induction_on generalizing net k hops with
  | _ d ih =>
    rcases h.route hk id with ⟨hid, hroute⟩ | ⟨-, l, hl, hroute⟩
    · exact .inr ⟨_, (h.loose.succ k hk).1, net, lookup_of_owner hroute, .refl net,
        .inr ⟨k, hk, (h.linked k hk).successor, hid⟩⟩
    by_cases hh : (net.member k).hopLimit ≤ hops
    · exact .inl ⟨_, net, lookup_of_limit hroute hh, .refl net⟩
    cases d with
    | zero =>
      -- nobody may answer the request any more
      exact .inl ⟨_, _, lookup_of_error (t := outgoing relay 0) hroute hh rfl, quiet_note net _⟩
    | succ d =>
      have hq := quiet_asking net k id hops (net.self l)
      by_cases hid : id = net.point l
      · exact .inr ⟨l, hl, _, lookup_hop_here h.online hl hroute hh hid, hq, .inl hid.symm⟩
      rcases ih d (Nat.lt_succ_self d) (h.of_quiet hq) hl (hops + 1) with
        ⟨fault, net', hlook, hq'⟩ | ⟨o, ho, net', hlook, hq', hbelieved⟩
      · obtain ⟨fault', hlook'⟩ := lookup_hop_error h.online hl hroute hh hid hlook
        exact .inl ⟨fault', net', hlook', hq.trans hq'⟩
      · rw [hq.kept.self] at hlook
        exact .inr ⟨o, ho, net', lookup_hop_ok h.online hl hroute hh hid ho hlook, hq.trans hq',
          hbelieved.of_quiet hq⟩

/-! ## Refreshes -/

section Refresh

variable {i : Fin 256}

/-- A refresh fails or finds that the member itself owns the point, or it sets its slot to a member that
    another one believes to be the owner. -/
theorem LooseRing.fixFinger_cases (h : LooseRing net ms L) (hk : k ∈ ms) (hi : 1 ≤ i.val) :
    ∃ net₁, Quiet net net₁ ∧ ((fixFinger transport k i.val net).2 = net₁ ∨
      (fixFinger transport k i.val net).2 = net₁.clearFinger k i ∨
      ∃ o ∈ ms, o ≠ k ∧ (fixFinger transport k i.val net).2 = net₁.setFinger k i (net.self o) ∧
        lookup transport k (net.point k + .ofNat (2 ^ (i.val - 1))) 0 net
          = (.ok (net.self o), net₁) ∧
        BelievedOwner net ms (net.point k + .ofNat (2 ^ (i.val - 1))) o) := by
  have hid := add_fingerOffset
    (show (net.peerSuccessor? k).isSome = true by rw [h.peerSuccessor?_eq hk]; rfl) hi
  rcases h.lookup_cases hk (net.point k + .ofNat (2 ^ (i.val - 1))) 0 net.callDepth with
    ⟨fault, net₁, hlook, hq⟩ | ⟨o, ho, net₁, hlook, hq, hbelieved⟩
  · rw [← lookup_transport] at hlook
    rw [fixFinger_of_error hid hlook]
    exact ⟨net₁, hq, .inl rfl⟩
  · rw [← lookup_transport] at hlook
    rw [fixFinger_eq hid hlook]
    refine ⟨net₁, hq, .inr ?_⟩
    by_cases hok : o = k
    · subst hok
      exact .inl (if_pos rfl)
    · exact .inr ⟨o, ho, hok, if_neg (h.online.self_ne ho hk hok), hlook, hbelieved⟩

/-- Every slot goes on holding another member. -/
theorem LooseRing.fixFinger (h : LooseRing net ms L) (hk : k ∈ ms) (hi : 1 ≤ i.val) :
    ∃ L', LooseRing (fixFinger transport k i.val net).2 ms L' := by
  obtain ⟨net₁, hq, hfix | hfix | ⟨o, ho, hok, hfix, -, -⟩⟩ := h.fixFinger_cases hk hi
  · rw [hfix]
    exact ⟨L, h.of_quiet hq⟩
  · have hring := h.of_quiet hq
    have htable := table_clearFinger (hring.online.lt_length hk) i
    rw [hfix]
    exact ⟨L, hring.advance (confined_clearFinger net₁ hk i).toKept
      (hring.linked.clearFinger hk hi (confined_clearFinger net₁ hk i).toKept htable) hring.loose⟩
  · have hring := h.of_quiet hq
    rw [← hq.kept.self] at hfix
    have hkept := (confined_setFinger net₁ hk i (net₁.self o)).toKept
    have htable := table_setFinger (hring.online.lt_length hk) i (net₁.self o)
    rw [hfix]
    refine ⟨_, hring.advance hkept (hring.linked.setFinger hk ho hok hkept htable) ?_⟩
    split
    · exact hring.loose.setSucc ho (Ne.symm hok)
    · exact hring.loose.setSucc (h.loose.succ k hk).1 (h.loose.succ k hk).2

/-- A founder that is alone owns every point, and goes on knowing nobody. -/
theorem Lone.fixFinger (h : Lone net b) (i : Fin 256) : Lone (fixFinger transport b i.val net).2 b := by
  have hb := List.mem_singleton_self b
  have hroute : ∀ id, (net.table b).route (net.self b) id = .owner (net.self b) := by
    intro id
    rw [h.table, Table.route, Table.successor?, Table.finger_empty, Option.getD_none, Table.Route.choose,
      if_pos (RingId.betweenIncl_self ..)]
  rw [fixFinger_eq rfl (lookup_of_owner (hroute _)), if_pos rfl]
  have htable := table_clearFinger (h.online.lt_length hb) i
  rw [h.table, show Table.empty.clearFinger i = Table.empty by
    unfold Table.clearFinger Table.empty
    simp only [List.set_replicate_self], ← h.table, Function.update_eq_self] at htable
  exact h.of_kept (confined_clearFinger net hb i).toKept htable

end Refresh

/-! ## Runs -/

/-- What a member does from time to time. -/
inductive Tick (k : Nat) (net : Network) : Network → Prop where
  | stabilized : Tick k net (stabilizeRound transport k net)
  | checked : Tick k net (checkRound transport k net)
  /-- It refreshes a slot past the first one. -/
  | refreshed {i : Nat} : 1 ≤ i → i ≤ 255 → Tick k net (fixFinger transport k i net).2

/-- The networks that form from a founder `b` without failures while members refresh their slots, each
    with its members. -/
inductive Tended (b : Nat) : Network → List Nat → Prop where
  | found {net : Network} : Online net [b] → (net.member b).joinThrough = none →
      Tended b (net.bootstrap b) [b]
  | arrive {net : Network} {ms : List Nat} {m : Member} : Tended b net ms →
      (∀ k ∈ ms, (net.self k).endpoint ≠ m.self.endpoint) →
      Tended b ((net.add m).register net.members.length) ms
  | entered {net net' : Network} {ms : List Nat} {k l : Nat} : Tended b net ms → Fresh net ms k →
      l ∈ ms → enter transport k (net.self l).endpoint net = (.ok (), net') →
      Tended b net' (k :: ms)
  | refused {net net' : Network} {ms : List Nat} {k l : Nat} {fault : RingFault} :
      Tended b net ms → Fresh net ms k → l ∈ ms →
      enter transport k (net.self l).endpoint net = (.error fault, net') → Tended b net' ms
  | ticked {net net' : Network} {ms : List Nat} {k : Nat} : Tended b net ms → k ∈ ms →
      Tick k net net' → Tended b net' ms

/-- A run without refreshes is a run. -/
theorem Formed.tended (h : Formed b net ms) : Tended b net ms := by
  induction h with
  | found ho hthrough => exact .found ho hthrough
  | arrive _ hm ih => exact .arrive ih hm
  | entered _ hf hl he ih => exact .entered ih hf hl he
  | refused _ hf hl he ih => exact .refused ih hf hl he
  | stabilized _ hk ih => exact .ticked ih hk .stabilized
  | checked _ hk ih => exact .ticked ih hk .checked

/-- A founder that is alone, or members with links to one another. -/
inductive Outline (b : Nat) (net : Network) : List Nat → Prop where
  | lone : Lone net b → Outline b net [b]
  | ring {ms : List Nat} {L : Links} : LooseRing net ms L → Outline b net ms

theorem Outline.arrive {m : Member} (h : Outline b net ms)
    (hm : ∀ k ∈ ms, (net.self k).endpoint ≠ m.self.endpoint) :
    Outline b ((net.add m).register net.members.length) ms := by
  cases h with
  | lone hlone => exact .lone (hlone.arrive hm)
  | ring hring => exact .ring (hring.arrive hm)

/-- The steps of a newcomer: it becomes a member, or nothing changes. -/
theorem Outline.enter (h : Outline b net ms) (hf : Fresh net ms k) {l : Nat} (hl : l ∈ ms) :
    (∃ net', enter transport k (net.self l).endpoint net = (.ok (), net') ∧
      Outline b net' (k :: ms)) ∨
    (∃ fault net', enter transport k (net.self l).endpoint net = (.error fault, net') ∧
      Outline b net' ms) := by
  cases h with
  | lone hlone =>
    rw [List.mem_singleton] at hl
    subst hl
    obtain ⟨net', he, L, hring⟩ := hlone.enter hf
    exact .inl ⟨net', he, .ring hring.loose⟩
  | ring hring =>
    rcases hring.enter_cases (hf.online hring.online) hf.table hl with
      ⟨fault, net', he, hq⟩ | ⟨L', net', -, he, -, hring'⟩
    · exact .inr ⟨fault, net', he, .ring (hring.of_quiet hq)⟩
    · exact .inl ⟨net', he, .ring hring'⟩

theorem Outline.tick (h : Outline b net ms) (hk : k ∈ ms) (ht : Tick k net net') :
    Outline b net' ms := by
  cases h with
  | lone hlone =>
    rw [List.mem_singleton] at hk
    subst hk
    cases ht with
    | stabilized => exact .lone hlone.stabilizeRound
    | checked => exact .lone hlone.checkRound
    | @refreshed i _ hi' => exact .lone (hlone.fixFinger ⟨i, Nat.lt_succ_of_le hi'⟩)
  | ring hring =>
    cases ht with
    | stabilized => exact .ring (hring.stabilizeRound hk).2
    | checked => exact .ring (hring.of_quiet (hring.checkRound hk))
    | @refreshed i hi hi' =>
      obtain ⟨L', hring'⟩ := hring.fixFinger (i := ⟨i, Nat.lt_succ_of_le hi'⟩) hk hi
      exact .ring hring'

/-- In every state that is reached the entries of members are other members. -/
theorem Tended.outline (h : Tended b net ms) : Outline b net ms := by
  -- one case for each step: what the step leaves behind has the outline again
  induction h with
  | found ho hthrough => exact .lone (lone_bootstrap ho hthrough)
  | arrive _ hm ih => exact ih.arrive hm
  | entered _ hf hl he ih =>
    rcases ih.enter hf hl with ⟨net', he', hout⟩ | ⟨fault, net', he', -⟩
    · rw [he, Prod.mk.injEq] at he'
      obtain ⟨-, rfl⟩ := he'
      exact hout
    · rw [he] at he'
      cases he'
  | refused _ hf hl he ih =>
    rcases ih.enter hf hl with ⟨net', he', -⟩ | ⟨fault, net', he', hout⟩
    · rw [he] at he'
      cases he'
    · rw [he, Prod.mk.injEq] at he'
      obtain ⟨-, rfl⟩ := he'
      exact hout
  | ticked _ hk ht ih => exact ih.tick hk ht

/-! ## The successor -/

/-- Where the successor is as far ahead as a slot reaches, it is what a refresh of the slot is told. -/
theorem LooseRing.lookup_of_le (h : LooseRing net ms L) (hk : k ∈ ms) {i : Fin 256}
    (hfar : 2 ^ (i.val - 1) ≤ (net.point k).dist (net.point (L.succ k))) (t : Transport) :
    lookup t k (net.point k + .ofNat (2 ^ (i.val - 1))) 0 net = (.ok (net.self (L.succ k)), net) := by
  have hlt := pow_lt (Nat.le_of_lt_succ i.isLt)
  obtain ⟨hm, hne⟩ := h.loose.succ k hk
  rcases h.route hk (net.point k + .ofNat (2 ^ (i.val - 1))) with ⟨-, hroute⟩ | ⟨hid, -⟩
  · exact lookup_of_owner hroute
  · refine absurd ?_ hid
    rw [RingId.betweenIncl_iff_dist (Ring.place_ne h.online.distinct hk hm (Ne.symm hne)),
      RingId.dist_add, RingId.val_ofNat, Nat.mod_eq_of_lt hlt]
    exact ⟨Nat.two_pow_pos _, hfar⟩

/-- A refresh of a slot past the first one leaves the successor of a member as it is, unless the slot held
    the successor, too, although it is not as far ahead as the slot reaches. Then the successor may be
    replaced together with the slot, by another member that some member believes to be the owner of the
    point that the slot covers. -/
theorem Tended.successor_fixFinger (h : Tended b net ms) (hk : k ∈ ms) {s : Node}
    (hs : (net.table k).successor? = some s) {i : Nat} (hi : 1 ≤ i) (hi' : i ≤ 255) :
    ((fixFinger transport k i net).2.table k).successor? = some s ∨
      ((net.table k).finger i = some s ∧ (net.point k).dist s.id < 2 ^ (i - 1) ∧
        ∃ o ∈ ms, o ≠ k ∧
          ((fixFinger transport k i net).2.table k).successor? = some (net.self o) ∧
          ((fixFinger transport k i net).2.table k).finger i = some (net.self o) ∧
          (∃ net₁, lookup transport k (net.point k + .ofNat (2 ^ (i - 1))) 0 net
            = (.ok (net.self o), net₁)) ∧
          BelievedOwner net ms (net.point k + .ofNat (2 ^ (i - 1))) o) := by
  cases h.outline with
  | lone hlone =>
    rw [List.mem_singleton] at hk
    subst hk
    rw [hlone.table, Table.successor?, Table.finger_empty] at hs
    cases hs
  | @ring _ L hring =>
    have hlen : i < 256 := Nat.lt_succ_of_le hi'
    have hsucc := (hring.linked k hk).successor
    rw [hs, Option.some_inj] at hsucc
    subst hsucc
    obtain ⟨net₁, hq, hfix | hfix | ⟨o, ho, hok, hfix, hlook, hbelieved⟩⟩ :=
      hring.fixFinger_cases (i := ⟨i, hlen⟩) hk hi
    · left
      rw [hfix, hq.table]
      exact hs
    · left
      rw [hfix, table_clearFinger ((hring.of_quiet hq).online.lt_length hk), Function.update_self,
        Table.successor?, Table.finger_clearFinger, if_neg (by simp only; omega), hq.table]
      exact hs
    · have htable := table_setFinger ((hring.of_quiet hq).online.lt_length hk) ⟨i, hlen⟩ (net.self o)
      rw [← hfix, hq.table] at htable
      rw [htable, Function.update_self, successor?_setFinger, hs]
      by_cases hshared : some (net.self (L.succ k)) = (net.table k).finger i
      · rw [if_pos hshared]
        by_cases hfar : 2 ^ (i - 1) ≤ (net.point k).dist (net.point (L.succ k))
        · -- the refresh is told the successor that it replaces
          rw [hring.lookup_of_le (i := ⟨i, hlen⟩) hk hfar, Prod.mk.injEq, Except.ok.injEq] at hlook
          exact .inl (congrArg some hlook.1.symm)
        · exact .inr ⟨hshared.symm, Nat.lt_of_not_le hfar, o, ho, hok, rfl,
            Table.finger_setFinger_self _ ⟨i, hlen⟩ _, ⟨net₁, hlook⟩, hbelieved⟩
      · exact .inl (if_neg hshared)

/-! ## An instance -/

/-- All have joined. The last one has refreshed a slot and was told the founder, by the member at 200, for
    want of knowing the members after it. It learns of them in two rounds. -/
def crowd : Network :=
  stabilizeRound transport 1 (stabilizeRound transport 1
    (fixFinger transport 3 9 (enter transport 3 "f" crowd₃).2).2)

theorem tended_crowd : Tended 0 crowd [3, 2, 1, 0] := by
  have hfresh : Fresh crowd₃ [2, 1, 0] 3 :=
    ⟨by decide +kernel, by decide +kernel, by decide +kernel, by decide +kernel⟩
  have hjoined : Formed 0 (enter transport 3 "f" crowd₃).2 [3, 2, 1, 0] :=
    formed_crowd₃.enter (l := 0) hfresh (by decide) (by decide +kernel) (by decide +kernel)
  have hx : 1 ∈ [3, 2, 1, 0] := by decide
  exact .ticked (.ticked (.ticked hjoined.tended (by decide)
    (.refreshed (i := 9) (by decide) (by decide))) hx .stabilized) hx .stabilized

/-- The refresh that the last one repeats. -/
theorem successor_crowd : (crowd.table 3).successor? = some (crowd.self 0) ∧
    ((fixFinger transport 3 9 crowd).2.table 3).successor? = some (crowd.self 2) ∧
    crowd.self 2 ≠ crowd.self 0 ∧
    ¬(crowd.self 2).id.between (crowd.point 3) (crowd.self 0).id = true := by decide +kernel

/-- A slot that is refreshed for the second time. -/
theorem successor_fixFinger_crowd : Tended 0 crowd [3, 2, 1, 0] ∧
    (crowd.table 3).successor? = some (crowd.self 0) ∧
    (((fixFinger transport 3 9 crowd).2.table 3).successor? = some (crowd.self 0) ∨
      ((crowd.table 3).finger 9 = some (crowd.self 0) ∧
        (crowd.point 3).dist (crowd.self 0).id < 2 ^ (9 - 1) ∧
        ∃ o ∈ [3, 2, 1, 0], o ≠ 3 ∧
          ((fixFinger transport 3 9 crowd).2.table 3).successor? = some (crowd.self o) ∧
          ((fixFinger transport 3 9 crowd).2.table 3).finger 9 = some (crowd.self o) ∧
          (∃ net₁, lookup transport 3 (crowd.point 3 + .ofNat (2 ^ (9 - 1))) 0 crowd
            = (.ok (crowd.self o), net₁)) ∧
          BelievedOwner crowd [3, 2, 1, 0] (crowd.point 3 + .ofNat (2 ^ (9 - 1))) o)) :=
  ⟨tended_crowd, successor_crowd.1,
    tended_crowd.successor_fixFinger (by decide) successor_crowd.1 (by decide) (by decide)⟩

/-- The successor need not go to a member between: here it goes to the predecessor. -/
theorem successor_lost_crowd : Tended 0 crowd [3, 2, 1, 0] ∧ 3 ∈ [3, 2, 1, 0] ∧
    (crowd.table 3).successor? = some (crowd.self 0) ∧
    ¬(((fixFinger transport 3 9 crowd).2.table 3).successor? = some (crowd.self 0) ∨
      ∃ n, ((fixFinger transport 3 9 crowd).2.table 3).successor? = some n ∧
        n.id.between (crowd.point 3) (crowd.self 0).id = true) := by
  obtain ⟨hbefore, hafter, hne, hno⟩ := successor_crowd
  refine ⟨tended_crowd, by decide, hbefore, ?_⟩
  rw [hafter]
  rintro (he | ⟨n, hn, hb⟩)
  · exact hne (Option.some_inj.1 he)
  · exact hno (Option.some_inj.1 hn ▸ hb)

end RingOverlay.Network
