import RingOverlay.Proofs.Network.Join
import RingOverlay.Proofs.Network.Torn

/-!
# `Network.Repair` — a ring survives the loss of one member

A member of a ring as it should be is lost: its endpoint is taken away, or it ends. Its two neighbours find
out by themselves, one when it stabilizes and one when it checks, and each reports it once. Within as many
rounds as the ring had members the survivors' successors and predecessors are those of a ring of their own.
Of the other slots only those of the member before the lost one are mended by this; a slot of any other
survivor that held the lost member still holds it, until it is refreshed.

## Contents
- **The loss.** `Crash`, and what it leaves as it is.
- **The start.** `Consistent.bereft`, `Bereft.torn`.
- **The ring.** `Repaired`, `crash_repaired`.
- **An instance.** `standalone`.
-/

namespace RingOverlay.Network

open RingOverlay.Ring (Links Gap next? prev?)
open RingOverlay.Ring.Links (Exact)

/-! ## The loss -/

/-- The member at position `c` cannot be reached any more: its endpoint is taken away, or it ends. -/
inductive Crash (net : Network) (c : Nat) : Network → Prop where
  | unregistered : Crash net c (net.unregister (net.self c).endpoint).2
  | dropped : Crash net c (net.drop c)

section Crash

variable {net net₀ : Network} {ms : List Nat} {c k : Nat}

theorem Crash.script (h : Crash net c net₀) : net₀.script = net.script := by
  cases h <;> rfl

theorem Crash.table (h : Crash net c net₀) : net₀.table = net.table := by
  cases h with
  | unregistered => rfl
  | dropped => exact net.table_update_of_spared c fun _ => rfl

/-- Other members go on as they are. -/
theorem Crash.member (h : Crash net c net₀) (hk : k ≠ c) : net₀.member k = net.member k := by
  cases h with
  | unregistered => rfl
  | dropped => exact net.member_update_of_ne _ hk.symm

theorem Crash.self (h : Crash net c net₀) (hc : c < net.members.length) : net₀.self = net.self := by
  funext k
  by_cases hk : k = c
  · subst hk
    cases h with
    | unregistered => rfl
    | dropped =>
      rw [Network.self, drop, member_update_self net _ hc]
      rfl
  · exact congrArg Member.self (h.member hk)

/-- Nobody answers at the endpoint of the lost member. -/
theorem Crash.find?_lost (h : Crash net c net₀) (hc : net.find? (net.self c).endpoint = some c) :
    net₀.find? (net.self c).endpoint = none := by
  have hlen := lt_length_of_find? hc
  cases h with
  | unregistered =>
    rw [find?, unregister, lookup_filter_self, Option.filter_none]
  | dropped =>
    rw [find?, Option.filter_eq_some_iff] at hc
    simp only [find?, drop, update, hc.1, Option.filter_some, List.getElem?_modify,
      List.getElem?_eq_getElem hlen]
    rfl

/-- The other members still answer. -/
theorem Crash.find?_survivor (h : Crash net c net₀) (hc : net.find? (net.self c).endpoint = some c)
    (hk : net.find? (net.self k).endpoint = some k) (hne : k ≠ c) :
    net₀.find? (net.self k).endpoint = some k := by
  cases h with
  | unregistered =>
    have he : (net.self k).endpoint ≠ (net.self c).endpoint := by
      intro he
      rw [he, hc, Option.some_inj] at hk
      exact hne hk.symm
    rw [find?, unregister, lookup_filter_ne he]
    exact hk
  | dropped =>
    rw [find?, Option.filter_eq_some_iff] at hk ⊢
    refine ⟨hk.1, ?_⟩
    simp only [drop, update, List.getElem?_modify, if_neg hne.symm, id_map']
    exact hk.2

theorem Crash.online (h : Crash net c net₀) (ho : Online net ms) (hc : c ∈ ms) :
    Online net₀ (ms.erase c) := by
  have hself := h.self (ho.lt_length hc)
  have hms : Online net (ms.erase c) := ho.sublist List.erase_sublist
  constructor
  · exact h.script.trans ho.script
  · exact hms.distinct.congr fun k _ => congrArg Node.id (congrFun hself k)
  · intro k hk
    obtain ⟨hne, hkm⟩ := (Ring.mem_erase_iff ho.distinct).1 hk
    rw [hself]
    exact h.find?_survivor (ho.answers c hc) (ho.answers k hkm) hne
  · intro k hk
    rw [hself]
    exact hms.address k hk

end Crash

/-! ## The start -/

section Start

variable {base net : Network} {ms : List Nat} {L : Links} {c : Nat} {spare : Option Nat}

/-- Whatever a table falls back to, it is another survivor. -/
theorem exists_spare {node : Nat → Node} {k s p : Nat} {t : Table} (h : Shows node ms k s p t) :
    ∃ spare : Option Nat, (t.remove (node c).id).successor? = spare.map node ∧
      ∀ m, spare = some m → m ∈ ms ∧ m ≠ c ∧ m ≠ k := by
  cases hs : (t.remove (node c).id).successor? with
  | none => exact ⟨none, rfl, fun m hm => nomatch hm⟩
  | some n =>
    obtain ⟨⟨j, hj⟩, hne⟩ := t.finger_remove hs
    obtain ⟨l, hl, hlk, rfl⟩ := h.finger j n hj
    refine ⟨some l, rfl, ?_⟩
    rintro _ ⟨⟩
    exact ⟨hl, fun he => hne (he ▸ rfl), hlk⟩

/-- What is left of a ring as it should be. -/
theorem Consistent.bereft (h : Consistent net ms) (ho : Online net ms) (hn : 3 ≤ ms.length)
    (hj : ∀ k ∈ ms, (net.member k).joinThrough = none) (hc : c ∈ ms) (hx : Crash net c base) :
    ∃ L spare, Exact net.point ms L ∧ Bereft base ms L c spare := by
  obtain ⟨L, he⟩ := Links.exists_exact net.point (show 2 ≤ ms.length by omega)
  have hring := h.soundRing ho he hc
  have hself := hx.self (ho.lt_length hc)
  have hpoint : base.point = net.point := by
    funext k
    rw [Network.point, hself, Network.point]
  obtain ⟨hpm, hpc, -⟩ := (Ring.prev?_eq_some_iff ho.distinct hc).1 (he c hc).2
  obtain ⟨spare, hspare, hfits⟩ := exists_spare (c := c) (hring.linked _ hpm)
  refine ⟨L, spare, he, ⟨⟨hpoint ▸ ho.distinct, hpoint ▸ he, hc, hn, ?_⟩, hx.online ho hc, ?_, ?_, ?_, ?_⟩⟩
  · intro m hm
    obtain ⟨hmm, hmc, hmp⟩ := hfits m hm
    exact ⟨(Ring.mem_erase_iff ho.distinct).2 ⟨hmc, hmm⟩, hmp⟩
  · rw [hself]
    exact hx.find?_lost (ho.answers c hc)
  · intro k hk
    rw [hself, hx.table]
    exact hring.linked k (List.mem_of_mem_erase hk)
  · rw [hx.table, hself, hpoint]
    exact hspare
  · rw [hx.member hpc]
    exact hj _ hpm

/-- At first nobody has noticed. -/
theorem Bereft.torn (h : Bereft base ms L c spare) : Torn base base ms L c (Gap.fresh c) where
  kept := .refl base
  spared _ _ _ := rfl
  front := by
    have hshows := h.linked _ h.lost.front_mem
    rw [h.lost.succ_pred h.lost.mem] at hshows
    exact ⟨hshows.successor, hshows.predecessor, fun _ => rfl, fun hne => absurd rfl hne⟩
  back := by
    have hpred := (h.linked _ h.lost.back_mem).predecessor
    rw [h.lost.pred_succ h.lost.mem] at hpred
    rw [show (Gap.fresh c).back.map base.self = some (base.self c) from rfl, ← hpred]
  told i := by
    rw [reports]
    simp [Gap.fresh]

end Start

/-! ## The ring -/

/-- The network after the loss of `c`, which stood between `p` and `s`, when the survivors have mended their
    ring. -/
structure Repaired (base net : Network) (ms : List Nat) (c p s : Nat) : Prop where
  successor : ∀ k ∈ ms.erase c,
    (net.table k).successor? = (next? base.point (ms.erase c) k).map base.self
  predecessor : ∀ k ∈ ms.erase c,
    net.predecessor? k = (prev? base.point (ms.erase c) k).map base.self
  /-- The slots of `p` hold other survivors only. -/
  finger_front : ∀ i n, (net.table p).finger i = some n → ∃ l ∈ ms.erase c, l ≠ p ∧ base.self l = n
  /-- The slots of every other survivor are what they were, those that hold `c` among them. -/
  finger : ∀ k ∈ ms.erase c, k ≠ p → ∀ i, (net.table k).finger i = (base.table k).finger i
  /-- One failure of a successor has been reported, by `p`. -/
  told_front : net.told RingEvent.isFailure p
    = .successorFailed (base.self c) :: base.told RingEvent.isFailure p
  /-- One failure of a predecessor has been reported, by `s`. -/
  told_back : net.told RingEvent.isFailure s
    = .predecessorFailed (base.self c) :: base.told RingEvent.isFailure s
  told : ∀ i, i ≠ p → i ≠ s → net.told RingEvent.isFailure i = base.told RingEvent.isFailure i

/-- Once the gap is closed the ring is mended. -/
theorem Torn.repaired {base net : Network} {ms : List Nat} {L : Links} {c : Nat} {spare : Option Nat}
    (t : Torn base net ms L c (Gap.closed L c)) (h : Bereft base ms L c spare) :
    Repaired base net ms c (L.pred c) (L.succ c) := by
  have hexact := h.lost.exact_bridge
  have hsc := (h.lost.succ h.lost.mem).2
  have hpc := (h.lost.pred h.lost.mem).2
  have hfront : (Gap.closed L c).front ≠ some c := fun he => hsc (Option.some_inj.1 he)
  have hback : (Gap.closed L c).back ≠ some c := fun he => hpc (Option.some_inj.1 he)
  have htold : ∀ i, net.told RingEvent.isFailure i
      = ((if i = L.pred c then [.successorFailed (base.self c)] else []) ++
          if i = L.succ c then [.predecessorFailed (base.self c)] else []) ++
        base.told RingEvent.isFailure i := by
    intro i
    rw [t.told i, reports]
    simp only [hfront, hback, ne_eq, not_false_eq_true, and_true]
  constructor
  · intro k hk
    rw [(hexact k hk).1, Option.map_some]
    by_cases hkp : k = L.pred c
    · subst hkp
      rw [t.front.successor, Links.succ_bridge_front]
      rfl
    · rw [t.successor?_of_ne h hk hkp, Links.succ_bridge_of_ne hkp, t.kept.self]
  · intro k hk
    rw [(hexact k hk).2, Option.map_some]
    by_cases hks : k = L.succ c
    · subst hks
      rw [t.predecessor?_back, Links.pred_bridge_back, t.kept.self]
      rfl
    · rw [t.predecessor?_of_ne h hk hks, Links.pred_bridge_of_ne hks, t.kept.self]
  · exact t.front.finger hfront
  · intro k hk hkp i
    by_cases hks : k = L.succ c
    · subst hks
      rw [t.back]
      rfl
    · rw [t.spared k hkp hks]
  · rw [htold, if_pos rfl, if_neg h.lost.front_ne_back]
    rfl
  · rw [htold, if_neg h.lost.front_ne_back.symm, if_pos rfl]
    rfl
  · intro i hip his
    rw [htold, if_neg hip, if_neg his]
    rfl

/-- As many rounds as the ring had members mend it. -/
theorem Bereft.repaired {base : Network} {ms : List Nat} {L : Links} {c : Nat} {spare : Option Nat}
    (h : Bereft base ms L c spare) {orders : List (List Nat)}
    (hp : ∀ order ∈ orders, order.Perm (ms.erase c)) (hlen : ms.length ≤ orders.length) :
    Kept base (orders.foldl tendEach base) ∧
      Repaired base (orders.foldl tendEach base) ms c (L.pred c) (L.succ c) := by
  have ht := h.torn.foldl_tendEach h (Gap.fits_fresh h.lost) (.inl rfl) hp
  rw [Gap.rounds_eq_closed h.lost hp hlen] at ht
  exact ⟨ht.kept, ht.repaired h⟩

/-- **A ring survives the loss of one member.** -/
theorem crash_repaired {net base : Network} {ms : List Nat} {c : Nat} (ho : Online net ms)
    (h : Consistent net ms) (hn : 3 ≤ ms.length) (hj : ∀ k ∈ ms, (net.member k).joinThrough = none)
    (hc : c ∈ ms) (hx : Crash net c base) {orders : List (List Nat)}
    (hp : ∀ order ∈ orders, order.Perm (ms.erase c)) (hlen : ms.length ≤ orders.length) :
    ∃ p s, prev? net.point ms c = some p ∧ next? net.point ms c = some s ∧
      Repaired base (orders.foldl tendEach base) ms c p s := by
  obtain ⟨L, spare, he, hb⟩ := h.bereft ho hn hj hc hx
  exact ⟨L.pred c, L.succ c, (he c hc).2, (he c hc).1, (hb.repaired hp hlen).2⟩

/-! ## An instance -/

/-- The members of `trio` without endpoints to join through again. The last of them is in nine slots of the
    first one, which comes after it, and the one before it knows nobody else. -/
def standalone : Network :=
  { trio with members := trio.members.map fun m => { m with joinThrough := none } }

theorem online_standalone : Online standalone [0, 1, 2] :=
  ⟨rfl, ⟨by decide, by decide⟩, by decide, by decide⟩

theorem consistent_standalone : Consistent standalone [0, 1, 2] := by
  have hself : standalone.self = trio.self := by
    funext k
    rcases k with _ | _ | _ | _ | k <;> rfl
  have htable : standalone.table = trio.table := by
    funext k
    rcases k with _ | _ | _ | _ | k <;> rfl
  have hpoint : standalone.point = trio.point := by
    funext k
    rw [point, hself, point]
  constructor
  · constructor
    · rw [htable, hself, hpoint]
      exact consistent_trio.successor
    · rw [htable, hself]
      exact consistent_trio.finger
  · unfold predecessor?
    rw [htable, hself, hpoint]
    exact consistent_trio.predecessor

/-- Three rounds of the survivors, in two orders. -/
def turns : List (List Nat) := [[1, 0], [0, 1], [1, 0]]

theorem turns_perm : ∀ order ∈ turns, order.Perm ([0, 1, 2].erase 2) := by decide

theorem prev?_standalone : prev? standalone.point [0, 1, 2] 2 = some 1 := by decide +kernel

theorem crash_repaired_standalone : prev? standalone.point [0, 1, 2] 2 = some 1 ∧
    next? standalone.point [0, 1, 2] 2 = some 0 ∧
    Repaired (standalone.drop 2) (turns.foldl tendEach (standalone.drop 2)) [0, 1, 2] 2 1 0 := by
  have hs : next? standalone.point [0, 1, 2] 2 = some 0 := by decide +kernel
  obtain ⟨p, s, hp', hs', hr⟩ := crash_repaired online_standalone consistent_standalone (by decide)
    (by decide) (by decide) (.dropped : Crash standalone 2 _) turns_perm (by decide)
  rw [prev?_standalone, Option.some_inj] at hp'
  rw [hs, Option.some_inj] at hs'
  subst hp' hs'
  exact ⟨prev?_standalone, hs, hr⟩

/-- After these rounds the first member still knows the lost one in slot 9. -/
theorem finger_outlives_crash : Online standalone [0, 1, 2] ∧ Consistent standalone [0, 1, 2] ∧
    (∀ k ∈ [0, 1, 2], (standalone.member k).joinThrough = none) ∧
    Crash standalone 2 (standalone.drop 2) ∧ (∀ order ∈ turns, order.Perm ([0, 1, 2].erase 2)) ∧
    ¬Consistent (turns.foldl tendEach (standalone.drop 2)) ([0, 1, 2].erase 2) := by
  have hcrash : Crash standalone 2 (standalone.drop 2) := .dropped
  refine ⟨online_standalone, consistent_standalone, by decide, hcrash, turns_perm, ?_⟩
  obtain ⟨L, spare, he, hb⟩ := consistent_standalone.bereft online_standalone (by decide) (by decide)
    (by decide) hcrash
  obtain ⟨hkept, hr⟩ := hb.repaired turns_perm (by decide)
  have hp := (he 2 (by decide)).2
  rw [prev?_standalone, Option.some_inj] at hp
  have hslot : ((standalone.drop 2).table 0).finger 9 = some ((standalone.drop 2).self 2) := by
    decide +kernel
  rw [← hr.finger 0 (by decide) (by rw [← hp]; decide) 9] at hslot
  intro h
  obtain ⟨l, hl, -, hself⟩ := h.finger 0 (by decide) 9 _ hslot
  rw [hkept.self] at hself
  revert l
  decide

end RingOverlay.Network
