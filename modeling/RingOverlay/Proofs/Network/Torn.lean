import RingOverlay.Proofs.Network.Events
import RingOverlay.Proofs.Network.Rounds
import RingOverlay.Proofs.Ring.Gap

/-!
# `Network.Torn` — the turns of survivors

A member `c` of a ring does not answer any more. `Torn` says how the network differs, some turns later,
from what it was: the tables of the two neighbours of `c` follow a `Ring.Gap`, each has reported `c` once it
dropped it, and nobody else has changed or reported anything. A turn of a survivor is a step of the gap.

## Contents
- **Silence of a neighbour.** What `dropSuccessor` and `dropPredecessor` change, and when they run.
- **The relation.** `Bereft`, `Torn`, and what the survivors' tables show.
- **Changes.** `Torn.modifyFront`, `Torn.modifyBack` and their cases.
- **Turns.** `Torn.checkRound`, `Torn.stabilizeRound`, `Torn.tendEach`.
-/

namespace RingOverlay

/-- Whether an event reports a neighbour that does not answer. -/
def RingEvent.isFailure : RingEvent → Bool
  | .successorFailed _ | .predecessorFailed _ => true
  | _ => false

namespace Network

open RingOverlay.Ring (Links Gap Lost)

/-! ## Silence of a neighbour -/

section Silence

variable {net net' : Network} {k : Nat} {n : Node} {fault : TransportFault}

/-- A successor that does not answer is dropped, and the round goes on. -/
theorem stabilizeRound_eq_of_error (hs : net.peerSuccessor? k = some n)
    (ht : transport .stabilize n.endpoint ⟨some (net.self k).contact⟩ net = (.error fault, net')) :
    stabilizeRound transport k net = (net'.dropSuccessor k n fault).announceIfReady k := by
  apply stabilizeRound_eq hs
  unfold stabilize
  rw [hs]
  simp only
  rw [ht]

/-- A predecessor that does not answer is dropped. -/
theorem checkRound_eq_of_error {s : Node} (hs : net.peerSuccessor? k = some s)
    (hp : net.predecessor? k = some n)
    (ht : transport .check n.endpoint ⟨some (net.self k).contact⟩ net = (.error fault, net')) :
    checkRound transport k net = net'.dropPredecessor k n fault := by
  unfold checkRound check
  rw [hs, hp]
  simp only
  rw [ht]
  rfl

theorem told_dropSuccessor (hk : k < net.members.length) (n : Node) (fault : TransportFault) :
    (net.dropSuccessor k n fault).told RingEvent.isFailure = Function.update
      (net.told RingEvent.isFailure) k (.successorFailed n :: net.told RingEvent.isFailure k) := by
  have hlen := ((confined_note net (.successorFailed n fault)).trans
    (confined_remove _ (List.mem_singleton_self k) n.id)).length
  rw [dropSuccessor, told_publish (hlen.symm ▸ hk) rfl, told_remove]
  rfl

/-- The predecessor that is dropped is the one that the member knows. -/
theorem dropPredecessor_eq (hp : net.predecessor? k = some n) (fault : TransportFault) :
    net.dropPredecessor k n fault
      = ((net.note (.predecessorFailed n fault)).clearPredecessor k).publish k (.predecessorFailed n) := by
  unfold dropPredecessor
  simp only
  rw [if_pos (show (net.note (.predecessorFailed n fault)).predecessor? k = some n from hp)]

theorem confined_dropPredecessor {who : List Nat} (hk : k ∈ who) (hp : net.predecessor? k = some n)
    (fault : TransportFault) : Confined who net (net.dropPredecessor k n fault) := by
  rw [dropPredecessor_eq hp]
  exact ((confined_note net _).trans (confined_clearPredecessor _ hk)).trans (confined_publish _ hk _)

theorem table_dropPredecessor (hk : k < net.members.length) (hp : net.predecessor? k = some n)
    (fault : TransportFault) : (net.dropPredecessor k n fault).table
      = Function.update net.table k (net.table k).clearPredecessor := by
  rw [dropPredecessor_eq hp, table_publish, table_clearPredecessor (by exact hk)]
  rfl

theorem told_dropPredecessor (hk : k < net.members.length) (hp : net.predecessor? k = some n)
    (fault : TransportFault) : (net.dropPredecessor k n fault).told RingEvent.isFailure = Function.update
      (net.told RingEvent.isFailure) k (.predecessorFailed n :: net.told RingEvent.isFailure k) := by
  have hlen := ((confined_note net (.predecessorFailed n fault)).trans
    (confined_clearPredecessor _ (List.mem_singleton_self k))).length
  rw [dropPredecessor_eq hp, told_publish (hlen.symm ▸ hk) rfl, told_clearPredecessor]
  rfl

end Silence

/-! ## The relation -/

/-- A ring as it should be, of which `c` does not answer any more. The member before `c` would fall back to
    `spare`, and it has no endpoint to join through again. -/
structure Bereft (base : Network) (ms : List Nat) (L : Links) (c : Nat) (spare : Option Nat) :
    Prop where
  lost : Lost base.point ms L c spare
  online : Online base (ms.erase c)
  gone : base.find? (base.self c).endpoint = none
  linked : Linked base ms (ms.erase c) L
  spare : ((base.table (L.pred c)).remove (base.point c)).successor? = spare.map base.self
  joinThrough : (base.member (L.pred c)).joinThrough = none

/-- The table of the member before the gap. Once it has dropped `c`, its slots hold other survivors. -/
structure Front (base : Network) (ms : List Nat) (L : Links) (c : Nat) (front : Option Nat) (t : Table) :
    Prop where
  successor : t.successor? = front.map base.self
  predecessor : t.predecessor = some (base.self (L.pred (L.pred c)))
  whole : front = some c → t = base.table (L.pred c)
  finger : front ≠ some c → ∀ i n, t.finger i = some n →
    ∃ l ∈ ms.erase c, l ≠ L.pred c ∧ base.self l = n

/-- What the members next to the gap report. -/
def reports (L : Links) (c : Nat) (node : Nat → Node) (g : Gap) (i : Nat) : List RingEvent :=
  (if i = L.pred c ∧ g.front ≠ some c then [.successorFailed (node c)] else []) ++
    if i = L.succ c ∧ g.back ≠ some c then [.predecessorFailed (node c)] else []

/-- The network after some turns of survivors. -/
structure Torn (base net : Network) (ms : List Nat) (L : Links) (c : Nat) (g : Gap) : Prop where
  kept : Kept base net
  spared : ∀ k, k ≠ L.pred c → k ≠ L.succ c → net.table k = base.table k
  front : Front base ms L c g.front (net.table (L.pred c))
  back : net.table (L.succ c)
    = { base.table (L.succ c) with predecessor := g.back.map base.self }
  told : ∀ i, net.told RingEvent.isFailure i
    = reports L c base.self g i ++ base.told RingEvent.isFailure i

section Readings

variable {base net : Network} {ms : List Nat} {L : Links} {c k m : Nat} {spare : Option Nat} {g : Gap}

theorem Torn.online (t : Torn base net ms L c g) (h : Bereft base ms L c spare) :
    Online net (ms.erase c) :=
  h.online.of_kept t.kept

theorem Torn.lt_length (t : Torn base net ms L c g) (h : Bereft base ms L c spare)
    (hk : k ∈ ms.erase c) : k < net.members.length :=
  (t.online h).lt_length hk

/-- Members, `c` among them, are different nodes. -/
theorem Torn.self_ne (t : Torn base net ms L c g) (h : Bereft base ms L c spare) (hk : k ∈ ms)
    (hm : m ∈ ms) (hne : k ≠ m) : net.self k ≠ net.self m := by
  rw [t.kept.self]
  exact fun he => hne (h.lost.distinct.place_inj k hk m hm (congrArg Node.id he))

/-- The survivors but the one before the gap know their successors. -/
theorem Torn.successor?_of_ne (t : Torn base net ms L c g) (h : Bereft base ms L c spare)
    (hk : k ∈ ms.erase c) (hne : k ≠ L.pred c) :
    (net.table k).successor? = some (net.self (L.succ k)) := by
  rw [t.kept.self, ← (h.linked k hk).successor]
  by_cases hks : k = L.succ c
  · subst hks
    rw [t.back]
    rfl
  · rw [t.spared k hne hks]

theorem Torn.peerSuccessor?_of_ne (t : Torn base net ms L c g) (h : Bereft base ms L c spare)
    (hk : k ∈ ms.erase c) (hne : k ≠ L.pred c) :
    net.peerSuccessor? k = some (net.self (L.succ k)) := by
  have hkm := List.mem_of_mem_erase hk
  have hsk := t.self_ne h (h.lost.succ hkm).1 hkm (h.lost.succ hkm).2
  exact peerSuccessor?_of_some (t.successor?_of_ne h hk hne) hsk

theorem Torn.peerSuccessor?_front (t : Torn base net ms L c g) (h : Bereft base ms L c spare)
    (hf : g.Fits ms L c) : net.peerSuccessor? (L.pred c) = g.front.map net.self := by
  have hs := t.front.successor
  rw [← t.kept.self] at hs
  cases hfront : g.front with
  | none => exact peerSuccessor?_of_none (hs.trans (congrArg _ hfront))
  | some m =>
    obtain ⟨hm, hp⟩ := hf.front m hfront
    have hne := t.self_ne h hm (List.mem_of_mem_erase h.lost.front_mem) hp
    exact peerSuccessor?_of_some (hs.trans (congrArg _ hfront)) hne

/-- The survivors but the one after the gap know their predecessors. -/
theorem Torn.predecessor?_of_ne (t : Torn base net ms L c g) (h : Bereft base ms L c spare)
    (hk : k ∈ ms.erase c) (hne : k ≠ L.succ c) :
    net.predecessor? k = some (net.self (L.pred k)) := by
  rw [predecessor?, t.kept.self]
  by_cases hkp : k = L.pred c
  · subst hkp
    exact t.front.predecessor
  · rw [t.spared k hkp hne]
    exact (h.linked k hk).predecessor

theorem Torn.predecessor?_back (t : Torn base net ms L c g) :
    net.predecessor? (L.succ c) = g.back.map net.self := by
  rw [predecessor?, t.back, t.kept.self]

/-- Whom a survivor knows as predecessor is a survivor, once the one after the gap has dropped `c`. -/
theorem Torn.predecessor?_survivor (t : Torn base net ms L c g) (h : Bereft base ms L c spare)
    (hf : g.Fits ms L c) (hk : k ∈ ms.erase c) (hb : k = L.succ c → g.back ≠ some c) :
    ∀ n, net.predecessor? k = some n → ∃ l ∈ ms.erase c, n = net.self l := by
  intro n hn
  by_cases hks : k = L.succ c
  · subst hks
    rw [t.predecessor?_back, Option.map_eq_some_iff] at hn
    obtain ⟨m, hm, rfl⟩ := hn
    have hmc : m ≠ c := fun he => hb rfl (he ▸ hm)
    exact ⟨_, h.lost.front_mem, congrArg _ ((hf.back m hm).resolve_left hmc)⟩
  · rw [t.predecessor?_of_ne h hk hks, Option.some_inj] at hn
    exact ⟨_, h.lost.pred_survivor hk hks, hn.symm⟩

end Readings

/-! ## Changes -/

section Changes

variable {base net net' : Network} {ms : List Nat} {L : Links} {c k m : Nat} {spare : Option Nat}
  {g : Gap}

/-- A step that changes no table and reports no failure. -/
theorem Torn.still (t : Torn base net ms L c g) (hk : Kept net net') (ht : net'.table = net.table)
    (he : net'.told RingEvent.isFailure = net.told RingEvent.isFailure) : Torn base net' ms L c g where
  kept := t.kept.trans hk
  spared k := ht ▸ t.spared k
  front := ht ▸ t.front
  back := ht ▸ t.back
  told i := he ▸ t.told i

theorem Torn.of_quiet (t : Torn base net ms L c g) (hq : Quiet net net') : Torn base net' ms L c g :=
  t.still hq.kept hq.table hq.told

/-- A survivor that announces itself reports no failure. -/
theorem Torn.announceIfReady (t : Torn base net ms L c g) (k : Nat) :
    Torn base (net.announceIfReady k) ms L c g :=
  t.still (confined_announceIfReady net (List.mem_singleton_self k)).toKept
    (table_announceIfReady net k) (told_announceIfReady net k fun _ _ => rfl)

theorem Torn.modifyFront (t : Torn base net ms L c g) (h : Bereft base ms L c spare)
    (hk : Kept net net') {table : Table} {front : Option Nat}
    (ht : net'.table = Function.update net.table (L.pred c) table)
    (hf : Front base ms L c front table)
    (he : ∀ i, net'.told RingEvent.isFailure i
      = reports L c base.self ⟨front, g.back⟩ i ++ base.told RingEvent.isFailure i) :
    Torn base net' ms L c ⟨front, g.back⟩ where
  kept := t.kept.trans hk
  spared i hip his := by rw [ht, Function.update_of_ne hip, t.spared i hip his]
  front := by rw [ht, Function.update_self]; exact hf
  back := by rw [ht, Function.update_of_ne h.lost.front_ne_back.symm, t.back]
  told := he

theorem Torn.modifyBack (t : Torn base net ms L c g) (h : Bereft base ms L c spare)
    (hk : Kept net net') {back : Option Nat}
    (ht : net'.table = Function.update net.table (L.succ c)
      { net.table (L.succ c) with predecessor := back.map base.self })
    (he : ∀ i, net'.told RingEvent.isFailure i
      = reports L c base.self ⟨g.front, back⟩ i ++ base.told RingEvent.isFailure i) :
    Torn base net' ms L c ⟨g.front, back⟩ where
  kept := t.kept.trans hk
  spared i hip his := by rw [ht, Function.update_of_ne his, t.spared i hip his]
  front := by rw [ht, Function.update_of_ne h.lost.front_ne_back]; exact t.front
  back := by rw [ht, Function.update_self, t.back]
  told := he

/-- The member before the gap has dropped `c` and takes a survivor as successor. -/
theorem Torn.setFront (t : Torn base net ms L c g) (h : Bereft base ms L c spare)
    (hg : g.front ≠ some c) (hm : m ∈ ms.erase c) (hp : m ≠ L.pred c) (note : Note) :
    Torn base ((net.note note).setFinger (L.pred c) Table.successorSlot (net.self m)) ms L c
      ⟨some m, g.back⟩ := by
  have hlen : L.pred c < (net.note note).members.length := t.lt_length h h.lost.front_mem
  have hconf := (confined_note net note).trans (confined_setFinger _ (List.mem_singleton_self (L.pred c))
    Table.successorSlot (net.self m))
  have hmc := (h.lost.mem_erase.1 hm).1
  rw [t.kept.self] at hconf ⊢
  refine t.modifyFront h hconf.toKept (table_setFinger hlen _ _) ?_ ?_
  · constructor
    · exact Table.finger_setFinger_self _ Table.successorSlot _
    · exact (Table.predecessor_setFinger ..).trans t.front.predecessor
    · rintro ⟨⟩
      exact absurd rfl hmc
    · intro _
      exact forall_finger_setFinger (t.front.finger hg) _ ⟨m, hm, hp, rfl⟩
  · intro i
    rw [told_setFinger, told_note, t.told i, reports, reports]
    simp only [hg, ne_eq, Option.some_inj, hmc, not_false_eq_true, and_true]

/-- The member before the gap drops `c` and falls back to its spare. -/
theorem Torn.dropSuccessor (t : Torn base net ms L c g) (h : Bereft base ms L c spare)
    (hg : g.front = some c) (fault : TransportFault) :
    Torn base (net.dropSuccessor (L.pred c) (net.self c) fault) ms L c ⟨spare, g.back⟩ := by
  have hlen := t.lt_length h h.lost.front_mem
  have hsc : spare ≠ some c := fun he => (h.lost.mem_erase.1 (h.lost.spare c he).1).1 rfl
  rw [t.kept.self]
  refine t.modifyFront h (confined_dropSuccessor net (List.mem_singleton_self _) _ _).toKept
    (table_dropSuccessor hlen _ _) ?_ ?_
  · rw [t.front.whole hg]
    constructor
    · exact h.spare
    · obtain ⟨hne, hm⟩ := h.lost.mem_erase.1
        (h.lost.pred_survivor h.lost.front_mem h.lost.front_ne_back)
      have hpoint : (base.self (L.pred (L.pred c))).id ≠ (base.self c).id :=
        Ring.place_ne h.lost.distinct hm h.lost.mem hne.symm
      rw [Table.remove, (h.linked _ h.lost.front_mem).predecessor, Option.filter_some,
        if_pos (decide_eq_true hpoint)]
    · exact fun he => absurd he hsc
    · intro _ i n hn
      obtain ⟨⟨j, hj⟩, hne⟩ := Table.finger_remove _ hn
      obtain ⟨l, hl, hlp, rfl⟩ := (h.linked _ h.lost.front_mem).finger j n hj
      refine ⟨l, h.lost.mem_erase.2 ⟨?_, hl⟩, hlp, rfl⟩
      rintro rfl
      exact hne rfl
  · intro i
    rw [told_dropSuccessor hlen]
    by_cases hi : i = L.pred c
    · subst hi
      rw [Function.update_self, t.told, reports, reports]
      simp [hg, hsc, h.lost.front_ne_back]
    · rw [Function.update_of_ne hi, t.told, reports, reports]
      simp [hi]

/-- The member after the gap drops `c`. -/
theorem Torn.dropPredecessor (t : Torn base net ms L c g) (h : Bereft base ms L c spare)
    (hg : g.back = some c) (fault : TransportFault) :
    Torn base (net.dropPredecessor (L.succ c) (net.self c) fault) ms L c ⟨g.front, none⟩ := by
  have hlen := t.lt_length h h.lost.back_mem
  have hp : net.predecessor? (L.succ c) = some (net.self c) := by
    rw [t.predecessor?_back, hg, Option.map_some]
  refine t.modifyBack h (confined_dropPredecessor (List.mem_singleton_self _) hp fault).toKept
    (table_dropPredecessor hlen hp fault) ?_
  intro i
  rw [told_dropPredecessor hlen hp fault, t.kept.self]
  by_cases hi : i = L.succ c
  · subst hi
    rw [Function.update_self, t.told, reports, reports]
    simp [hg, h.lost.front_ne_back.symm]
  · rw [Function.update_of_ne hi, t.told, reports, reports]
    simp [hi]

/-- The member after the gap has dropped `c` and takes the one before the gap as predecessor. -/
theorem Torn.adoptPredecessor (t : Torn base net ms L c g) (h : Bereft base ms L c spare)
    (hg : g.back ≠ some c) :
    Torn base (net.adoptPredecessor (L.succ c) (net.self (L.pred c))) ms L c
      ⟨g.front, some (L.pred c)⟩ := by
  have hpc := (h.lost.pred h.lost.mem).2
  rw [t.kept.self]
  refine t.modifyBack h (confined_adoptPredecessor net (List.mem_singleton_self _) _).toKept
    (table_adoptPredecessor (t.lt_length h h.lost.back_mem) _) ?_
  intro i
  rw [told_adoptPredecessor_of_not net _ _ fun _ _ => rfl, t.told, reports, reports]
  simp only [hg, ne_eq, Option.some_inj, hpc, not_false_eq_true, and_true]

end Changes

/-! ## Turns -/

section Turns

variable {base net : Network} {ms : List Nat} {L : Links} {c k m : Nat} {spare : Option Nat} {g : Gap}

/-- A survivor checks its predecessor. -/
theorem Torn.checkRound (t : Torn base net ms L c g) (h : Bereft base ms L c spare)
    (hf : g.Fits ms L c) (hk : k ∈ ms.erase c) :
    Torn base (checkRound transport k net) ms L c (g.check L c k) := by
  unfold Gap.check
  split
  · next hc =>
    obtain ⟨rfl, hg⟩ := hc
    have hp : net.predecessor? (L.succ c) = some (net.self c) := by
      rw [t.predecessor?_back, hg, Option.map_some]
    have hgone : net.find? (net.self c).endpoint = none := by
      rw [t.kept.self, t.kept.find?, h.gone]
    rw [checkRound_eq_of_error (t.peerSuccessor?_of_ne h hk h.lost.front_ne_back.symm) hp
      (transport_eq_unreachable (t.online h).script hgone .check _)]
    have hask := quiet_ask net .check (net.self c).endpoint ⟨some (net.self (L.succ c)).contact⟩
    have hdrop := (t.of_quiet hask).dropPredecessor h hg (.peerUnreachable (net.self c).endpoint)
    rw [hask.kept.self] at hdrop
    exact hdrop
  · next hc =>
    rw [not_and] at hc
    exact t.of_quiet ((t.online h).checkRound (t.predecessor?_survivor h hf hk hc))

/-- A survivor other than the one before the gap makes itself known to its successor. Where that is the
    member before the gap, and that one has no successor, it is attached again. -/
theorem Torn.stabilize_of_ne (t : Torn base net ms L c g) (h : Bereft base ms L c spare)
    (hf : g.Fits ms L c) (hk : k ∈ ms.erase c) (hne : k ≠ L.pred c) :
    ∃ net', stabilize transport k net = (.ok (), net') ∧
      Torn base net' ms L c (g.stabilize L c spare k) := by
  have hkm := List.mem_of_mem_erase hk
  have hl := h.lost.succ_survivor hk hne
  have hknown : net.predecessor? (L.succ k) = some (net.self k) := by
    rw [t.predecessor?_of_ne h hl (h.lost.succ_ne_back hk), h.lost.pred_succ hkm]
  obtain ⟨net₂, hq, hstab⟩ := (t.online h).stabilize_of_known hk hl (h.lost.succ hkm).2.symm
    (t.peerSuccessor?_of_ne h hk hne) hknown
  have t₂ := t.of_quiet hq
  rw [hstab]
  refine ⟨_, rfl, ?_⟩
  unfold Gap.stabilize
  rw [if_neg hne]
  split
  · next hlost =>
    obtain ⟨hl', hnone⟩ := hlost
    have hpeer : net₂.peerSuccessor? (L.pred c) = none := by
      rw [t₂.peerSuccessor?_front h hf, hnone, Option.map_none]
    rw [hl', adoptNotifier, hpeer]
    exact t₂.setFront h (by rw [hnone]; exact (Option.some_ne_none c).symm) hk hne _
  · next hlost =>
    rw [not_and] at hlost
    have hpeer : ∃ s, net₂.peerSuccessor? (L.succ k) = some s := by
      by_cases hlp : L.succ k = L.pred c
      · rw [hlp, t₂.peerSuccessor?_front h hf]
        obtain ⟨m, hm⟩ := Option.ne_none_iff_exists'.1 (hlost hlp)
        exact ⟨_, by rw [hm, Option.map_some]⟩
      · exact ⟨_, t₂.peerSuccessor?_of_ne h hl hlp⟩
    obtain ⟨s, hs⟩ := hpeer
    rw [adoptNotifier_of_some hs]
    exact t₂

/-- The member before the gap takes over the predecessor of its successor. -/
theorem Torn.moveCloser (t : Torn base net ms L c g) (h : Bereft base ms L c spare)
    (hf : g.Fits ms L c) (hg : g.front = some m) (hm : m ∈ ms.erase c) (hb : g.back ≠ some c) :
    Torn base (net.moveCloser (L.pred c) (net.self m) (net.predecessor? m)) ms L c
      ⟨some (Gap.stride L c m), g.back⟩ := by
  obtain ⟨hmc, hmm⟩ := h.lost.mem_erase.1 hm
  have hp := (hf.front m hg).2
  unfold Gap.stride
  split
  · next hms =>
    -- the successor is at the far side already
    have hstay : net.moveCloser (L.pred c) (net.self m) (net.predecessor? m) = net := by
      rw [hms, t.predecessor?_back]
      cases hback : g.back with
      | none => rfl
      | some q =>
        obtain rfl := (hf.back q hback).resolve_left fun he => hb (he ▸ hback)
        exact moveCloser_self ..
    rw [hstay, ← hg]
    exact t
  · next hms =>
    have hbetween : (net.self (L.pred m)).id.between (net.self (L.pred c)).id (net.self m).id = true := by
      rw [t.kept.self]
      exact h.lost.between_pred hm hp
    have hfront : g.front ≠ some c := by
      rw [hg]
      exact fun he => hmc (Option.some_inj.1 he)
    rw [t.predecessor?_of_ne h hm hms, Network.moveCloser, if_pos hbetween]
    exact t.setFront h hfront (h.lost.pred_survivor hm hms) (h.lost.pred_ne_front hm) _

/-- The member before the gap makes itself known to its successor, which takes it as predecessor where that
    is the member after the gap. -/
theorem Torn.notify (t : Torn base net ms L c g) (h : Bereft base ms L c spare)
    (hf : g.Fits ms L c) (hg : g.front = some m) (hm : m ∈ ms.erase c) (hb : g.back ≠ some c) :
    ∃ net', notify transport (L.pred c) net = (.ok (), net') ∧
      Torn base net' ms L c (g.arrive L c m) := by
  have hmm := List.mem_of_mem_erase hm
  have hp := (hf.front m hg).2
  have hpm := List.mem_of_mem_erase h.lost.front_mem
  obtain ⟨net₁, hq, hnotify⟩ := (t.online h).notify_eq h.lost.front_mem hm hp.symm (by
    rw [t.peerSuccessor?_front h hf, hg, Option.map_some])
  have t₁ := t.of_quiet hq
  have hadopt : Torn base (if closerPredecessor (net₁.self m) (net₁.predecessor? m) (net₁.self (L.pred c))
      then net₁.adoptPredecessor m (net₁.self (L.pred c)) else net₁) ms L c (g.arrive L c m) := by
    unfold Gap.arrive
    by_cases hms : m = L.succ c
    · subst hms
      rw [if_pos rfl, t₁.predecessor?_back, ← hg]
      cases hback : g.back with
      | none => exact t₁.adoptPredecessor h hb
      | some q =>
        obtain rfl := (hf.back q hback).resolve_left fun he => hb (he ▸ hback)
        have hcloser : ¬closerPredecessor (net₁.self (L.succ c)) (some (net₁.self (L.pred c)))
            (net₁.self (L.pred c)) = true := RingId.not_between_left _ _
        rw [Option.map_some, if_neg hcloser, ← hback]
        exact t₁
    · have hcloser : ¬closerPredecessor (net₁.self m) (net₁.predecessor? m) (net₁.self (L.pred c))
          = true := by
        rw [t₁.predecessor?_of_ne h hm hms, t₁.kept.self]
        exact h.lost.not_between_pred hmm hpm
      rw [if_neg hms, if_neg hcloser, ← hg]
      exact t₁
  refine ⟨_, ?_, hadopt⟩
  rw [hnotify, adoptNotifier_of_some (hadopt.peerSuccessor?_of_ne h hm hp)]

/-- The member before the gap drops `c`, or goes on from a survivor, or has nobody to ask. It comes to
    the member after the gap only when that one has dropped `c`, too. -/
theorem Torn.stabilizeRound_front (t : Torn base net ms L c g) (h : Bereft base ms L c spare)
    (hf : g.Fits ms L c) (hready : g.front = some c ∨ g.back ≠ some c) :
    Torn base (stabilizeRound transport (L.pred c) net) ms L c (g.stabilize L c spare (L.pred c)) := by
  have hpeer := t.peerSuccessor?_front h hf
  unfold Gap.stabilize
  rw [if_pos rfl]
  cases hfront : g.front with
  | none =>
    rw [hfront, Option.map_none] at hpeer
    rw [stabilizeRound_eq_of_none hpeer (by rw [t.kept.joinThrough, h.joinThrough])]
    have hconf := confined_setAnnounced net (List.mem_singleton_self (L.pred c)) false
    exact (t.still hconf.toKept (table_setAnnounced ..) (told_setAnnounced ..)).announceIfReady _
  | some m =>
    rw [hfront, Option.map_some] at hpeer
    simp only
    split
    · next hmc =>
      subst hmc
      have hgone : net.find? (net.self m).endpoint = none := by
        rw [t.kept.self, t.kept.find?, h.gone]
      rw [stabilizeRound_eq_of_error hpeer
        (transport_eq_unreachable (t.online h).script hgone .stabilize _)]
      have hask := quiet_ask net .stabilize (net.self m).endpoint ⟨some (net.self (L.pred m)).contact⟩
      have hdrop := (t.of_quiet hask).dropSuccessor h hfront (.peerUnreachable (net.self m).endpoint)
      rw [hask.kept.self] at hdrop
      exact hdrop.announceIfReady _
    · next hmc =>
      obtain ⟨hm, hp⟩ := hf.survivor h.lost hfront hmc
      have hback := hready.resolve_left fun he => hmc (Option.some_inj.1 (hfront.symm.trans he))
      have haddress : ∀ n, net.predecessor? m = some n → n.endpoint ≠ "" := by
        intro n hn
        obtain ⟨l, hl, rfl⟩ := t.predecessor?_survivor h hf hm (fun _ => hback) n hn
        exact (t.online h).address l hl
      obtain ⟨net₁, hq, hstab⟩ := (t.online h).stabilize_eq_notify hm hpeer haddress
      have hmove := (t.of_quiet hq).moveCloser h hf hfront hm hback
      have hs := Gap.stride_survivor h.lost hm hp
      obtain ⟨net', hn, ht⟩ := hmove.notify h (hf.setFront (List.mem_of_mem_erase hs.1) hs.2) rfl hs.1
        hback
      rw [stabilizeRound_eq hpeer (hstab.trans hn)]
      exact ht.announceIfReady _

/-- A survivor stabilizes. -/
theorem Torn.stabilizeRound (t : Torn base net ms L c g) (h : Bereft base ms L c spare)
    (hf : g.Fits ms L c) (hk : k ∈ ms.erase c)
    (hready : k = L.pred c → g.front = some c ∨ g.back ≠ some c) :
    Torn base (stabilizeRound transport k net) ms L c (g.stabilize L c spare k) := by
  by_cases hkp : k = L.pred c
  · subst hkp
    exact t.stabilizeRound_front h hf (hready rfl)
  · obtain ⟨net', hn, ht⟩ := t.stabilize_of_ne h hf hk hkp
    rw [stabilizeRound_eq (t.peerSuccessor?_of_ne h hk hkp) hn]
    exact ht.announceIfReady _

/-- The turn of a survivor: it checks its predecessor and stabilizes. -/
def tend (net : Network) (k : Nat) : Network := stabilizeRound transport k (checkRound transport k net)

theorem Torn.tend (t : Torn base net ms L c g) (h : Bereft base ms L c spare) (hf : g.Fits ms L c)
    (hk : k ∈ ms.erase c) (hready : k = L.pred c → g.front = some c ∨ g.back ≠ some c) :
    Torn base (net.tend k) ms L c (g.tend L c spare k) := by
  refine (t.checkRound h hf hk).stabilizeRound h (hf.check k) hk ?_
  rintro rfl
  -- it is not the member after the gap, so its check did not change what that one knows
  have hcheck : g.check L c (L.pred c) = g := if_neg fun hc => h.lost.front_ne_back hc.1
  rw [hcheck]
  exact hready rfl

/-- One turn of each member of a list, in its order. -/
def tendEach (net : Network) (order : List Nat) : Network := order.foldl tend net

/-- While the member before the gap has a turn to come, it knows `c`, or the one after the gap does not. -/
theorem Torn.tendEach (t : Torn base net ms L c g) (h : Bereft base ms L c spare) (hf : g.Fits ms L c)
    {order : List Nat} (ho : order ⊆ ms.erase c) (hnodup : order.Nodup)
    (hready : L.pred c ∈ order → g.front = some c ∨ g.back ≠ some c) :
    Torn base (net.tendEach order) ms L c (order.foldl (Gap.tend L c spare) g) := by
  induction order generalizing net g with
  | nil => exact t
  | cons k order ih =>
    obtain ⟨hk, ho⟩ := List.cons_subset.1 ho
    obtain ⟨hnot, hnodup⟩ := List.nodup_cons.1 hnodup
    refine ih (t.tend h hf hk fun he => hready (he ▸ List.mem_cons_self ..)) (hf.tend h.lost hk) ho
      hnodup ?_
    intro hp
    have hkp : k ≠ L.pred c := by
      rintro rfl
      exact hnot hp
    rcases hready (List.mem_cons_of_mem k hp) with hfront | hback
    · exact .inl (Gap.front_tend_of_ne hkp hfront)
    · exact .inr (Gap.back_tend_ne h.lost (.inr hback))

/-- Rounds in which every survivor has a turn. -/
theorem Torn.foldl_tendEach (t : Torn base net ms L c g) (h : Bereft base ms L c spare)
    (hf : g.Fits ms L c) (hready : g.front = some c ∨ g.back ≠ some c) {orders : List (List Nat)}
    (ho : ∀ order ∈ orders, order.Perm (ms.erase c)) :
    Torn base (orders.foldl Network.tendEach net) ms L c (Gap.rounds L c spare orders g) := by
  induction orders generalizing net g with
  | nil => exact t
  | cons order orders ih =>
    obtain ⟨hp, ho⟩ := List.forall_mem_cons.1 ho
    have hnodup := hp.nodup_iff.2 h.lost.distinct_survivors.nodup
    have hn := Gap.noticed_foldl_tend h.lost hf hp.subset (.inl (hp.mem_iff.2 h.lost.front_mem))
      (.inl (hp.mem_iff.2 h.lost.back_mem))
    exact ih (t.tendEach h hf hp.subset hnodup fun _ => hready) (hf.foldl_tend h.lost hp.subset)
      (.inr hn.back) ho

end Turns

end Network

end RingOverlay
