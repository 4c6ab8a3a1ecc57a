import Mathlib.Algebra.Group.Action.Defs
import Mathlib.Algebra.Order.BigOperators.Group.List
import Mathlib.Algebra.Order.Ring.Nat
import Mathlib.Data.List.Nodup
import Mathlib.Data.List.Perm.Subperm
import RingOverlay.Proofs.Ring.Links

/-!
# `Ring.Convergence` — rounds of stabilizing lead to the exact ring

`excess` counts, over all neighbours that members know, the members that lie between. No step makes it
greater. A step of a member whose successor knows it as predecessor changes nothing, and any other step
makes it smaller. So among more rounds than the excess there is one that changes nothing, and then
successors and predecessors belong together. Together with `Sound` that leaves only the exact ring: a
wrong neighbour could be traced back, towards the founder, without end.

## Contents
- **Measure.** `excess` and its bound `excess_lt`.
- **Steps.** `stabilize_eq_self`, `Sound.excess_stabilize_lt`.
- **Rounds.** `Sound.round`, `Sound.rounds`.
- **The rest.** `Exact`, `Sound.exact`.
-/

namespace RingOverlay.Ring.Links

variable {place : Nat → RingId} {ms : List Nat} {b : Nat} {L : Links}

/-! ## Measure -/

/-- The members that lie between members and the neighbours that they know. -/
def excess (place : Nat → RingId) (ms : List Nat) (L : Links) : Nat :=
  (ms.map fun k => within place ms (place k) (place (L.succ k)) +
    within place ms (place (L.pred k)) (place k)).sum

/-- Every member sees fewer than all on either side. -/
theorem excess_lt (hn : 0 < ms.length) : excess place ms L < 2 * ms.length * ms.length := by
  have hterm : ∀ x ∈ ms.map fun k => within place ms (place k) (place (L.succ k)) +
      within place ms (place (L.pred k)) (place k), x ≤ 2 * ms.length - 2 := by
    intro x hx
    obtain ⟨k, hk, rfl⟩ := List.mem_map.1 hx
    have h1 := within_lt_length hk (RingId.not_between_left (place k) (place (L.succ k)))
    have h2 := within_lt_length hk (RingId.not_between_right (place (L.pred k)) (place k))
    omega
  have hsum := List.sum_le_card_nsmul _ _ hterm
  rw [List.length_map, smul_eq_mul] at hsum
  refine Nat.lt_of_le_of_lt hsum ?_
  rw [Nat.mul_comm (2 * ms.length)]
  exact Nat.mul_lt_mul_of_pos_left (by omega) hn

/-! ## Steps -/

/-- A member whose successor knows it changes nothing. -/
theorem stabilize_eq_self {k : Nat} (h : L.pred (L.succ k) = k) : L.stabilize place k = L := by
  have hc : L.closeIn place k = L := by
    rw [closeIn, h, approach, if_neg (RingId.not_between_left _ _)]
  rw [stabilize, hc, hear, h, if_neg (RingId.not_between_left _ _)]

/-- A change at one member that brings its neighbours closer makes the excess smaller. -/
theorem excess_lt_excess {L' : Links} {k : Nat} (hk : k ∈ ms)
    (hsucc : ∀ i, i ≠ k → L'.succ i = L.succ i) (hpred : ∀ i, i ≠ k → L'.pred i = L.pred i)
    (hlt : within place ms (place k) (place (L'.succ k)) + within place ms (place (L'.pred k)) (place k)
      < within place ms (place k) (place (L.succ k)) + within place ms (place (L.pred k)) (place k)) :
    excess place ms L' < excess place ms L := by
  unfold excess
  apply List.sum_lt_sum
  · intro i _
    by_cases hik : i = k
    · subst hik
      exact Nat.le_of_lt hlt
    · rw [hsucc i hik, hpred i hik]
  · exact ⟨k, hk, hlt⟩

theorem excess_approach_lt {k c : Nat} (hk : k ∈ ms) (hc : c ∈ ms)
    (hb : (place c).between (place k) (place (L.succ k)) = true) :
    excess place ms (L.approach place k c) < excess place ms L := by
  rw [approach, if_pos hb]
  apply excess_lt_excess hk
  · intro i hik
    exact Function.update_of_ne hik ..
  · intro i _
    rfl
  · simp only [Function.update_self]
    exact Nat.add_lt_add_right (within_left_lt hc hb) _

theorem excess_hear_lt {l k : Nat} (hl : l ∈ ms) (hk : k ∈ ms)
    (hb : (place k).between (place (L.pred l)) (place l) = true) :
    excess place ms (L.hear place l k) < excess place ms L := by
  rw [hear, if_pos hb]
  apply excess_lt_excess hl
  · intro i _
    rfl
  · intro i hil
    exact Function.update_of_ne hil ..
  · simp only [Function.update_self]
    exact Nat.add_lt_add_left (within_right_lt hk hb) _

theorem excess_hear_le {l k : Nat} (hl : l ∈ ms) (hk : k ∈ ms) :
    excess place ms (L.hear place l k) ≤ excess place ms L := by
  by_cases hb : (place k).between (place (L.pred l)) (place l) = true
  · exact Nat.le_of_lt (excess_hear_lt hl hk hb)
  · rw [hear, if_neg hb]

/-- A member whose successor knows another predecessor improves what one of the two knows. -/
theorem Sound.excess_stabilize_lt (h : Sound place ms b L) (hd : Distinct place ms) {k : Nat}
    (hk : k ∈ ms) (hne : L.pred (L.succ k) ≠ k) :
    excess place ms (L.stabilize place k) < excess place ms L := by
  have hs := h.succ k hk
  have hp := h.pred _ hs.1
  have hs' := (h.closeIn hk).succ k hk
  by_cases hb : (place (L.pred (L.succ k))).between (place k) (place (L.succ k)) = true
  · calc excess place ms (L.stabilize place k)
        ≤ excess place ms (L.closeIn place k) := excess_hear_le hs'.1 hk
      _ < excess place ms L := excess_approach_lt hk hp.1 hb
  · -- the predecessor known is not ahead of `k`, so it is behind
    have hc : L.closeIn place k = L := by
      rw [Links.closeIn, Links.approach, if_neg hb]
    rw [Links.stabilize, hc]
    refine excess_hear_lt hs.1 hk ?_
    have h1 := place_ne hd hp.1 hk hne.symm
    have h2 := place_ne hd hk hs.1 hs.2.1.symm
    have h3 := place_ne hd hp.1 hs.1 hp.2.1.symm
    rw [← RingId.val_ne_iff] at h1 h2 h3
    rw [RingId.between_iff_val] at hb ⊢
    omega

/-! ## Rounds -/

/-- The successor of every member knows it. -/
def Mutual (ms : List Nat) (L : Links) : Prop := ∀ k ∈ ms, L.pred (L.succ k) = k

theorem Sound.foldl_stabilize (h : Sound place ms b L) {order : List Nat} (ho : order ⊆ ms) :
    Sound place ms b (order.foldl (Links.stabilize place) L) := by
  induction order generalizing L with
  | nil => exact h
  | cons k order ih =>
    obtain ⟨hk, ho⟩ := List.cons_subset.1 ho
    exact ih (h.stabilize hk) ho

/-- A round leaves all as it is or makes the excess smaller. -/
theorem Sound.round (h : Sound place ms b L) (hd : Distinct place ms) {order : List Nat}
    (ho : order ⊆ ms) :
    (Mutual order L ∧ order.foldl (Links.stabilize place) L = L) ∨
      excess place ms (order.foldl (Links.stabilize place) L) < excess place ms L := by
  -- the first member whose turn changes something lowers the excess, and no later one raises it
  induction order generalizing L with
  | nil =>
    refine .inl ⟨?_, rfl⟩
    intro k hk
    cases hk
  | cons k order ih =>
    obtain ⟨hk, ho⟩ := List.cons_subset.1 ho
    rw [List.foldl_cons]
    have hrest := ih (h.stabilize hk) ho
    by_cases hne : L.pred (L.succ k) = k
    · rw [stabilize_eq_self hne] at hrest ⊢
      rcases hrest with ⟨hm, hf⟩ | hlt
      · exact .inl ⟨List.forall_mem_cons.2 ⟨hne, hm⟩, hf⟩
      · exact .inr hlt
    · refine .inr ?_
      have hlt := h.excess_stabilize_lt hd hk hne
      rcases hrest with ⟨-, hf⟩ | hlt'
      · rw [hf]
        exact hlt
      · exact Nat.lt_trans hlt' hlt

theorem Mutual.foldl_stabilize (h : Mutual ms L) {order : List Nat} (ho : order ⊆ ms) :
    order.foldl (Links.stabilize place) L = L := by
  induction order with
  | nil => rfl
  | cons k order ih =>
    obtain ⟨hk, ho⟩ := List.cons_subset.1 ho
    rw [List.foldl_cons, stabilize_eq_self (h k hk)]
    exact ih ho

/-- What the rounds that follow one another make of the links. -/
def afterRounds (place : Nat → RingId) (rounds : List (List Nat)) (L : Links) : Links :=
  rounds.foldl (fun L order => order.foldl (Links.stabilize place) L) L

theorem Mutual.afterRounds (h : Mutual ms L) {rounds : List (List Nat)}
    (hr : ∀ order ∈ rounds, order ⊆ ms) : afterRounds place rounds L = L := by
  induction rounds with
  | nil => rfl
  | cons order rounds ih =>
    obtain ⟨ho, hr⟩ := List.forall_mem_cons.1 hr
    rw [Links.afterRounds, List.foldl_cons, h.foldl_stabilize ho]
    exact ih hr

/-- More rounds than the excess, each of all members, make successors and predecessors fit. -/
theorem Sound.rounds (h : Sound place ms b L) (hd : Distinct place ms) {rounds : List (List Nat)}
    (hr : ∀ order ∈ rounds, order.Perm ms) (he : excess place ms L < rounds.length) :
    Sound place ms b (afterRounds place rounds L) ∧ Mutual ms (afterRounds place rounds L) := by
  -- every round before the first idle one uses up some of the excess
  induction rounds generalizing L with
  | nil => exact absurd he (Nat.not_lt_zero _)
  | cons order rounds ih =>
    obtain ⟨ho, hr⟩ := List.forall_mem_cons.1 hr
    rcases h.round hd ho.subset with ⟨hm, hf⟩ | hlt
    · -- an idle round: nothing changes any more
      have hm : Mutual ms L := by
        intro k hk
        exact hm k (ho.mem_iff.2 hk)
      rw [hm.afterRounds (List.forall_mem_cons.2 ⟨ho.subset, fun o ho => (hr o ho).subset⟩)]
      exact ⟨h, hm⟩
    · rw [List.length_cons] at he
      exact ih (h.foldl_stabilize ho.subset) hr (Nat.lt_of_lt_of_le hlt (Nat.lt_succ_iff.1 he))

/-! ## The rest -/

/-- Every member knows its neighbours as they are. -/
def Exact (place : Nat → RingId) (ms : List Nat) (L : Links) : Prop :=
  ∀ k ∈ ms, next? place ms k = some (L.succ k) ∧ prev? place ms k = some (L.pred k)

/-- Successors that are known as such reach every member. -/
theorem Sound.succ_pred (h : Sound place ms b L) (hd : Distinct place ms) (hm : Mutual ms L)
    {k : Nat} (hk : k ∈ ms) : L.succ (L.pred k) = k := by
  -- an injective map of the members into the members reaches them all
  have hperm : (ms.map L.succ).Perm ms := by
    have hnodup : (ms.map L.succ).Nodup := by
      apply hd.nodup.map_on
      intro x hx y hy he
      rw [← hm x hx, he, hm y hy]
    have hsub : ms.map L.succ ⊆ ms := by
      intro x hx
      obtain ⟨k, hk, rfl⟩ := List.mem_map.1 hx
      exact (h.succ k hk).1
    exact (List.subperm_of_subset hnodup hsub).perm_of_length_le (List.length_map _).ge
  obtain ⟨j, hj, rfl⟩ := List.mem_map.1 (hperm.mem_iff.2 hk)
  rw [hm j hj]

/-- The distance from the founder at which a walk arrives at a member. -/
def arrival (place : Nat → RingId) (b k : Nat) : Nat :=
  if k = b then 2 ^ 256 else (place b).dist (place k)

/-- A member inside a clear arc is reached before the end of the arc. -/
theorem arrival_lt (hd : Distinct place ms) {x y c : Nat} (hb : b ∈ ms) (hc : c ∈ ms)
    (hy : y ∈ ms) (h : Clear place b x y)
    (hxy : (place c).between (place x) (place y) = true) :
    arrival place b c < arrival place b y := by
  have hcb : c ≠ b := by
    rintro rfl
    exact h.2 hxy
  have hcb' := place_ne hd hb hc hcb
  rw [arrival, if_neg hcb, arrival]
  split
  · exact RingId.dist_lt _ _
  · next hyb =>
    have hyb' := place_ne hd hb hy hyb
    have hno := h.2
    have h1 := RingId.dist_spec (place b) (place c)
    have h2 := RingId.dist_spec (place b) (place y)
    have h3 := RingId.val_lt (place c)
    have h4 := RingId.val_lt (place y)
    have h5 := RingId.val_lt (place x)
    rw [← RingId.val_ne_iff] at hcb' hyb'
    rw [RingId.between_iff_val] at hxy hno
    omega

/-- In a sound state with fitting links every predecessor is the previous member. -/
theorem Sound.prev?_eq (h : Sound place ms b L) (hd : Distinct place ms) (hm : Mutual ms L)
    {k : Nat} (hk : k ∈ ms) : prev? place ms k = some (L.pred k) := by
  -- induction on the arrival at `k`: a member in between has a wrong predecessor too
  induction hn : arrival place b k using Nat.strong_induction_on generalizing k with
  | _ n ih =>
    obtain ⟨hp, hclear⟩ := h.pred k hk
    have hsucc := h.succ_pred hd hm hk
    have hlen : 2 ≤ ms.length := by
      rcases ms with _ | ⟨x, _ | ⟨y, ms⟩⟩
      · cases hk
      · rw [List.mem_singleton] at hk hp
        exact absurd (hp.trans hk.symm) hclear.1
      · simp
    obtain ⟨z, hz⟩ := exists_next? place hp hlen
    obtain ⟨hzm, hzp, hzno⟩ := (next?_eq_some_iff hd hp).1 hz
    by_cases hzk : z = k
    · subst hzk
      exact (prev?_eq_some_iff_next? hd hp hzm).2 hz
    · exfalso
      have hbetween : (place z).between (place (L.pred k)) (place k) = true := by
        have h1 := place_ne hd hk hzm hzk
        have h2 := place_ne hd hp hzm hzp
        have h3 := place_ne hd hp hk hclear.1.symm
        have h4 := hzno k hk
        rw [← RingId.val_ne_iff] at h1 h2 h3
        rw [RingId.between_iff_val] at h4 ⊢
        omega
      have hprev := ih _ (hn ▸ arrival_lt hd h.founder hzm hk hclear hbetween) hzm rfl
      rw [(prev?_eq_some_iff_next? hd hp hzm).2 hz, Option.some_inj] at hprev
      have hz' := h.succ_pred hd hm hzm
      rw [← hprev, hsucc] at hz'
      exact hzk hz'.symm

/-- In a sound state with fitting links every successor is the next member. -/
theorem Sound.next?_eq (h : Sound place ms b L) (hd : Distinct place ms) (hm : Mutual ms L)
    {k : Nat} (hk : k ∈ ms) : next? place ms k = some (L.succ k) := by
  have hs := (h.succ k hk).1
  have hprev := h.prev?_eq hd hm hs
  rw [hm k hk] at hprev
  exact (prev?_eq_some_iff_next? hd hk hs).1 hprev

theorem Sound.exact (h : Sound place ms b L) (hd : Distinct place ms) (hm : Mutual ms L) :
    Exact place ms L := by
  intro k hk
  constructor
  · exact h.next?_eq hd hm hk
  · exact h.prev?_eq hd hm hk

end RingOverlay.Ring.Links
