import RingOverlay.Proofs.Ring.Convergence

/-!
# `Ring.Newcomer` — how an exact ring takes a newcomer in

A newcomer enters an exact ring at either of its two neighbours, and the other one has to learn of it.
Where it entered behind the member before it, its own first round tells the member after it. Where it
entered before the member after it, the member before it finds out in its next round. Both repairs lead to
the same links, `splice`, which are mutual and hence exact.

## Contents
- **The exact ring.** `exists_exact`, `Exact.sound`, `Exact.mutual`.
- **Repairs.** `splice`, `stabilize_insertAfter`, `stabilize_insertBefore`, `Mutual.splice`.
- **A round.** `exact_pair`, and `Exact.entry`: the newcomer's round and one of every old member, in any
  order.
-/

namespace RingOverlay.Ring.Links

variable {place : Nat → RingId} {ms : List Nat} {b j k l : Nat} {L : Links}

/-! ## The exact ring -/

theorem exists_exact (place : Nat → RingId) (hn : 2 ≤ ms.length) : ∃ L, Exact place ms L := by
  refine ⟨⟨fun k => (next? place ms k).getD k, fun k => (prev? place ms k).getD k⟩, ?_⟩
  intro k hk
  constructor
  · obtain ⟨s, hs⟩ := exists_next? place hk hn
    simp only [hs, Option.getD_some]
  · cases hp : prev? place ms k with
    | none =>
      rw [prev?_eq_none_iff hk] at hp
      rw [hp, List.length_singleton] at hn
      omega
    | some p => simp only [hp, Option.getD_some]

theorem Exact.mutual (h : Exact place ms L) (hd : Distinct place ms) : Mutual ms L := by
  intro k hk
  have hs := (h k hk).1
  have hsm := ((next?_eq_some_iff hd hk).1 hs).1
  have hp := (h _ hsm).2
  rw [(prev?_eq_some_iff_next? hd hk hsm).2 hs, Option.some_inj] at hp
  exact hp.symm

theorem Exact.sound (h : Exact place ms L) (hd : Distinct place ms) (hb : b ∈ ms) :
    Sound place ms b L := by
  constructor
  · exact hb
  · intro k hk
    obtain ⟨hm, hne, hno⟩ := (next?_eq_some_iff hd hk).1 (h k hk).1
    exact ⟨hm, hne.symm, hno b hb⟩
  · intro k hk
    obtain ⟨hm, hne, hno⟩ := (prev?_eq_some_iff hd hk).1 (h k hk).2
    exact ⟨hm, hne, hno b hb⟩

/-! ## Repairs -/

/-- `k` stands between `j` and `l`, and both know it. -/
def splice (L : Links) (j k l : Nat) : Links where
  succ := Function.update (Function.update L.succ j k) k l
  pred := Function.update (Function.update L.pred l k) k j

theorem succ_splice_self : (L.splice j k l).succ k = l := Function.update_self ..

theorem pred_splice_self : (L.splice j k l).pred k = j := Function.update_self ..

theorem succ_insertBefore_self : (L.insertBefore l k).succ k = l := Function.update_self ..

theorem pred_insertBefore_self : (L.insertBefore l k).pred k = L.pred l := Function.update_self ..

theorem pred_insertBefore (hlk : l ≠ k) : (L.insertBefore l k).pred l = k :=
  (Function.update_of_ne hlk ..).trans (Function.update_self ..)

/-- A newcomer that entered behind `j` makes itself known to the member after it. -/
theorem stabilize_insertAfter (hl : L.pred (L.succ j) = j) (hk : k ≠ L.succ j)
    (hb : (place k).between (place j) (place (L.succ j)) = true) :
    (L.insertAfter j k).stabilize place k = L.splice j k (L.succ j) := by
  have hs : (L.insertAfter j k).succ k = L.succ j := Function.update_self ..
  have hp : (L.insertAfter j k).pred (L.succ j) = j := (Function.update_of_ne hk.symm ..).trans hl
  have hc : (L.insertAfter j k).closeIn place k = L.insertAfter j k := by
    rw [closeIn, hs, hp, approach, if_neg]
    intro hj
    rw [hs] at hj
    rw [RingId.between_iff_val] at hb hj
    omega
  rw [stabilize, hc, hs, hear, hp, if_pos hb, splice, insertAfter, Function.update_comm hk]

/-- The member before a newcomer that entered before `l` finds it. -/
theorem stabilize_insertBefore (hj : L.pred l = j) (hl : L.succ j = l) (hjk : j ≠ k) (hlk : l ≠ k)
    (hb : (place k).between (place j) (place l) = true) :
    (L.insertBefore l k).stabilize place j = L.splice j k l := by
  have hs : (L.insertBefore l k).succ j = l := (Function.update_of_ne hjk ..).trans hl
  have hp : (L.insertBefore l k).pred l = k := pred_insertBefore hlk
  have hpk : (L.insertBefore l k).pred k = j := pred_insertBefore_self.trans hj
  have hc : (L.insertBefore l k).closeIn place j
      = { L.insertBefore l k with succ := Function.update (L.insertBefore l k).succ j k } := by
    rw [closeIn, hs, hp, approach, hs, if_pos hb]
  rw [stabilize, hc]
  simp only [Function.update_self]
  rw [hear, if_neg (by rw [hpk]; exact RingId.not_between_left _ _), splice, insertBefore, hj,
    Function.update_comm hjk]

theorem Mutual.splice (hm : Mutual ms L) (hs : ∀ i ∈ ms, L.succ i ∈ ms) (hk : k ∉ ms)
    (hj : j ∈ ms) : Mutual (k :: ms) (L.splice j k (L.succ j)) := by
  have hne : ∀ i ∈ ms, i ≠ k := by
    rintro i hi rfl
    exact hk hi
  intro i hi
  show Function.update (Function.update L.pred (L.succ j) k) k j
    (Function.update (Function.update L.succ j k) k (L.succ j) i) = i
  rcases List.mem_cons.1 hi with rfl | hi
  · rw [Function.update_self, Function.update_of_ne (hne _ (hs j hj)), Function.update_self]
  · rw [Function.update_of_ne (hne i hi)]
    by_cases hij : i = j
    · rw [hij, Function.update_self, Function.update_self]
    · have hsi : L.succ i ≠ L.succ j := fun he => hij (by rw [← hm i hi, he, hm j hj])
      rw [Function.update_of_ne hij, Function.update_of_ne (hne _ (hs i hi)),
        Function.update_of_ne hsi, hm i hi]

/-! ## A round -/

theorem Exact.splice (h : Exact place ms L) (hd : Distinct place (k :: ms)) (hj : j ∈ ms)
    (hb : (place k).between (place j) (place (L.succ j)) = true) :
    Exact place (k :: ms) (L.splice j k (L.succ j)) := by
  have hd' := hd.sublist (List.sublist_cons_self k ms)
  have hk := (List.nodup_cons.1 hd.nodup).1
  have hs := h.sound hd' hj
  have hm := h.mutual hd'
  have hsj := (hs.succ j hj).1
  have hkj : k ≠ L.succ j := fun he => hk (he ▸ hsj)
  have hsound := (hs.entry (.after hj hb)).stabilize (List.mem_cons_self ..)
  rw [stabilize_insertAfter (hm j hj) hkj hb] at hsound
  exact hsound.exact hd (hm.splice (fun i hi => (hs.succ i hi).1) hk hj)

/-- A founder and its first newcomer are a ring as it should be, and know it. -/
theorem exact_pair {m : Nat} (hd : Distinct place [k, m]) : Exact place [k, m] (pair m k) := by
  have hk : k ≠ m := List.ne_of_not_mem_cons (List.nodup_cons.1 hd.nodup).1
  apply (Sound.pair hk).exact hd
  intro i hi
  simp only [List.mem_cons, List.not_mem_nil, or_false] at hi
  rcases hi with rfl | rfl
  · simp only [pair, if_neg hk, if_true]
  · simp only [pair, if_true, if_neg hk]

/-- Of a newcomer that entered before `l` the member before it learns in its own round, and nobody else
    changes anything. -/
theorem Exact.foldl_insertBefore (h : Exact place ms L) (hd : Distinct place ms) (hk : k ∉ ms)
    (hl : l ∈ ms) (hb : (place k).between (place (L.pred l)) (place l) = true) {order : List Nat}
    (ho : order.Perm ms) :
    order.foldl (stabilize place) (L.insertBefore l k) = L.splice (L.pred l) k l := by
  have hs := h.sound hd hl
  have hm := h.mutual hd
  have hj := (hs.pred l hl).1
  have hsj := hs.succ_pred hd hm hl
  have hne : ∀ i ∈ ms, i ≠ k := by
    rintro i hi rfl
    exact hk hi
  have hmutual := hm.splice (fun i hi => (hs.succ i hi).1) hk hj
  obtain ⟨front, rest, rfl⟩ := List.append_of_mem (ho.mem_iff.2 hj)
  have hnodup := ho.nodup_iff.2 hd.nodup
  -- those whose turn is before that of the member before the newcomer
  have hfront : Mutual front (L.insertBefore l k) := by
    intro i hi
    have him : i ∈ ms := ho.subset (List.mem_append_left _ hi)
    have hij : i ≠ L.pred l := by
      rintro rfl
      exact (List.nodup_append.1 hnodup).2.2 _ hi _ (List.mem_cons_self ..) rfl
    have hsi : L.succ i ≠ l := fun he => hij (by rw [← hm i him, he])
    show Function.update (Function.update L.pred l k) k (L.pred l)
      (Function.update L.succ k l i) = i
    rw [Function.update_of_ne (hne i him), Function.update_of_ne (hne _ (hs.succ i him).1),
      Function.update_of_ne hsi, hm i him]
  rw [hsj] at hmutual
  rw [List.foldl_append, hfront.foldl_stabilize (fun i hi => hi), List.foldl_cons,
    stabilize_insertBefore rfl hsj (hne _ hj) (hne l hl) hb]
  exact hmutual.foldl_stabilize fun i hi => List.mem_cons_of_mem k
    (ho.subset (List.mem_append_right _ (List.mem_cons_of_mem _ hi)))

/-- Wherever a newcomer entered, its own round gives it the right neighbours, and a round of every old
    member makes the ring exact. -/
theorem Exact.entry (h : Exact place ms L) (hd : Distinct place (k :: ms)) {L' : Links}
    (he : Entry place ms L k L') :
    ∃ F, Exact place (k :: ms) F ∧ (L'.stabilize place k).succ k = F.succ k ∧
      (L'.stabilize place k).pred k = F.pred k ∧ ∀ order : List Nat, order.Perm ms →
        order.foldl (stabilize place) (L'.stabilize place k) = F := by
  have hd' := hd.sublist (List.sublist_cons_self k ms)
  have hk := (List.nodup_cons.1 hd.nodup).1
  have hm := h.mutual hd'
  have hne : ∀ i ∈ ms, i ≠ k := by
    rintro i hi rfl
    exact hk hi
  cases he with
  | @after j hj hb =>
    have hs := h.sound hd' hj
    rw [stabilize_insertAfter (hm j hj) (hne _ (hs.succ j hj).1).symm hb]
    refine ⟨_, h.splice hd hj hb, rfl, rfl, ?_⟩
    intro order ho
    exact (hm.splice (fun i hi => (hs.succ i hi).1) hk hj).foldl_stabilize
      fun i hi => List.mem_cons_of_mem k (ho.subset hi)
  | @before l hl hb =>
    have hs := h.sound hd' hl
    have hsj := hs.succ_pred hd' hm hl
    have hsplice := h.splice hd (hs.pred l hl).1 (by rw [hsj]; exact hb)
    rw [hsj] at hsplice
    -- the newcomer's own round finds that its successor knows it
    rw [stabilize_eq_self (by rw [succ_insertBefore_self, pred_insertBefore (hne l hl)])]
    refine ⟨_, hsplice, ?_, ?_, fun order ho => h.foldl_insertBefore hd' hk hl hb ho⟩
    · rw [succ_insertBefore_self, succ_splice_self]
    · rw [pred_insertBefore_self, pred_splice_self]

end RingOverlay.Ring.Links
