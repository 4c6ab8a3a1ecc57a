import Mathlib.Data.List.Dedup
import RingOverlay.Proofs.RingId.Arc
import RingOverlay.Table

/-!
# `Table.Preceding` — the closest node in front of a point

A member looks for the closest node in front of a point from its highest slot downwards and takes the first
one that lies between itself and the point. It finds one whenever a slot holds one, in whatever order the
slots are, and it finds itself otherwise. The first one found is also the farthest ahead if the slots are in
order; and of that only so much is needed as compaction leaves: nodes may stand in lower slots once more, at
wrong places, for the search comes to the place first where a node stands last.

## Contents
- **Entries.** `known`, the nodes in slots.
- **The search.** `closestPreceding_eq`, `closestPreceding_of_finger`; `closestPreceding_eq_self_iff`.
- **Routes.** `route_eq`.
- **Order.** `Ascending`, `find?_reverse_of_pairwise`, `closestPreceding_farthest`.
-/

namespace RingOverlay.Table

/-! ## Entries -/

/-- The nodes in slots, from slot 0 on. -/
def known (t : Table) : List Node := t.fingers.filterMap fun slot => slot

theorem mem_known {t : Table} {n : Node} : n ∈ t.known ↔ ∃ i, t.finger i = some n := by
  rw [finger_eq_some_iff_mem, known, List.mem_filterMap]
  simp

/-! ## The search -/

/-- The closest node in front of a point is in a slot, unless no slot holds one. -/
theorem closestPreceding_eq {t : Table} {self n : Node} {id : RingId}
    (h : t.closestPreceding self id = n) :
    n = self ∨ (n.id.between self.id id = true ∧ ∃ i, t.finger i = some n) := by
  unfold closestPreceding at h
  cases hf : (t.fingers.reverse.filterMap fun slot => slot).find?
      fun n => n.id.between self.id id with
  | none =>
    rw [hf, Option.getD_none] at h
    exact .inl h.symm
  | some m =>
    rw [hf, Option.getD_some] at h
    subst h
    have hm := List.mem_of_find?_eq_some hf
    rw [List.mem_filterMap] at hm
    obtain ⟨slot, hslot, rfl⟩ := hm
    obtain ⟨i, hi⟩ := List.mem_iff_getElem?.1 (List.mem_reverse.1 hslot)
    have hb := List.find?_some (p := fun n : Node => n.id.between self.id id) hf
    refine .inr ⟨hb, i, ?_⟩
    rw [finger, hi, Option.join_some]

/-- Read from the top, slots give an entry that is at least as high as any that passes a test. -/
theorem find?_reverse_slots {slots : List (Option Node)} {p : Node → Bool} {i : Nat} {n : Node}
    (hi : slots[i]? = some (some n)) (hn : p n = true) :
    ∃ j m, i ≤ j ∧ slots[j]? = some (some m) ∧ p m = true ∧
      (slots.reverse.filterMap fun slot => slot).find? p = some m := by
  induction slots generalizing i n with
  | nil => cases hi
  | cons slot above ih =>
    rw [List.reverse_cons, List.filterMap_append, List.find?_append]
    cases hfind : (above.reverse.filterMap fun slot => slot).find? p with
    | some m =>
      cases i with
      | zero =>
        have hm := List.mem_of_find?_eq_some hfind
        rw [List.mem_filterMap] at hm
        obtain ⟨_, hm, rfl⟩ := hm
        obtain ⟨j, hj⟩ := List.mem_iff_getElem?.1 (List.mem_reverse.1 hm)
        exact ⟨j + 1, m, Nat.zero_le _, hj, List.find?_some hfind, rfl⟩
      | succ i =>
        obtain ⟨j, m', hij, hj, hm, hfind'⟩ := ih hi hn
        rw [hfind, Option.some_inj] at hfind'
        subst hfind'
        exact ⟨j + 1, m, Nat.succ_le_succ hij, hj, hm, rfl⟩
    | none =>
      cases i with
      | zero =>
        obtain rfl := Option.some_inj.1 hi
        refine ⟨0, n, Nat.le_refl 0, rfl, hn, ?_⟩
        exact List.find?_cons_of_pos hn
      | succ i =>
        obtain ⟨j, m, -, -, -, hfind'⟩ := ih hi hn
        rw [hfind] at hfind'
        cases hfind'

/-- The closest node in front of a point is in a slot at least as high as any other slot with a node in
    front of the point. -/
theorem closestPreceding_of_finger {t : Table} {self n : Node} {id : RingId} {i : Nat}
    (hi : t.finger i = some n) (hn : n.id.between self.id id = true) :
    ∃ j m, i ≤ j ∧ t.finger j = some m ∧ m.id.between self.id id = true ∧
      t.closestPreceding self id = m := by
  obtain ⟨j, m, hij, hj, hm, hfind⟩ := find?_reverse_slots (p := fun n => n.id.between self.id id)
    (Option.join_eq_some_iff.1 hi) hn
  refine ⟨j, m, hij, Option.join_eq_some_iff.2 hj, hm, ?_⟩
  rw [closestPreceding, hfind, Option.getD_some]

/-- Where the successor does not own a point, the closest node in front of the point is one that a slot
    holds: slot 0 holds one already. -/
theorem closestPreceding_of_not_betweenIncl {t : Table} {self : Node} {id : RingId}
    (hid : ¬id.betweenIncl self.id (t.successor?.getD self).id = true) :
    ∃ i n, t.finger i = some n ∧ n.id.between self.id id = true ∧ t.closestPreceding self id = n := by
  cases hs : t.successor? with
  | none =>
    rw [hs] at hid
    exact absurd (RingId.betweenIncl_self ..) hid
  | some s =>
    rw [hs] at hid
    obtain ⟨i, n, -, hi, hb, hn⟩ :=
      closestPreceding_of_finger hs (RingId.between_of_not_betweenIncl hid)
    exact ⟨i, n, hi, hb, hn⟩

/-- The search comes back to where it began only if no slot holds a node in front of the point. -/
theorem closestPreceding_eq_self_iff {t : Table} {self : Node} {id : RingId} :
    t.closestPreceding self id = self ↔
      ∀ i n, t.finger i = some n → ¬n.id.between self.id id = true := by
  constructor
  · intro h i n hi hb
    obtain ⟨_, m, -, -, hm, hclosest⟩ := closestPreceding_of_finger hi hb
    rw [h] at hclosest
    subst hclosest
    exact RingId.not_between_left _ _ hm
  · intro h
    rcases closestPreceding_eq (rfl : t.closestPreceding self id = _) with hself | ⟨hb, i, hi⟩
    · exact hself
    · exact absurd hb (h i _ hi)

/-! ## Routes -/

/-- Routes come without the successor's standing in for the closest node. -/
theorem route_eq (t : Table) (self : Node) (id : RingId) :
    t.route self id =
      if id.betweenIncl self.id (t.successor?.getD self).id then .owner (t.successor?.getD self)
      else .forward (t.closestPreceding self id) := by
  unfold route Route.choose
  by_cases hid : id.betweenIncl self.id (t.successor?.getD self).id = true
  · rw [if_pos hid, if_pos hid]
  · rw [if_neg hid, if_neg hid, if_neg]
    obtain ⟨i, n, -, hb, hn⟩ := closestPreceding_of_not_betweenIncl hid
    rw [hn]
    rintro rfl
    exact RingId.not_between_left _ _ hb

/-! ## Order -/

/-- The known nodes, each taken where it stands last, lie farther and farther ahead. -/
def Ascending (t : Table) (self : Node) : Prop :=
  t.known.dedup.Pairwise fun m n => self.id.dist m.id < self.id.dist n.id

instance (t : Table) (self : Node) : Decidable (t.Ascending self) := by
  unfold Ascending
  infer_instance

/-- Read from the end, a list whose last occurrences are in order gives the greatest entry that passes a
    test. -/
theorem find?_reverse_of_pairwise {nodes : List Node} {R : Node → Node → Prop} {p : Node → Bool}
    {n r : Node} (hR : nodes.dedup.Pairwise R) (hr : nodes.reverse.find? p = some r) (hn : n ∈ nodes)
    (hp : p n = true) : n = r ∨ R n r := by
  induction nodes with
  | nil => cases hn
  | cons x xs ih =>
    rw [List.reverse_cons, List.find?_append] at hr
    cases hfind : xs.reverse.find? p with
    | none =>
      -- nothing behind the first entry passes, so it is the one in question
      rw [hfind, Option.none_or] at hr
      rcases List.mem_cons.1 hn with rfl | hn
      · exact .inl (List.mem_singleton.1 (List.mem_of_find?_eq_some hr)).symm
      · exact absurd hp (List.find?_eq_none.1 hfind n (List.mem_reverse.2 hn))
    | some m =>
      rw [hfind, Option.some_or, Option.some_inj] at hr
      subst hr
      by_cases hx : x ∈ xs
      · rw [List.dedup_cons_of_mem hx] at hR
        rcases List.mem_cons.1 hn with rfl | hn
        · exact ih hR hfind hx
        · exact ih hR hfind hn
      · rw [List.dedup_cons_of_notMem hx, List.pairwise_cons] at hR
        rcases List.mem_cons.1 hn with rfl | hn
        · have hm := List.mem_reverse.1 (List.mem_of_find?_eq_some hfind)
          exact .inr (hR.1 m (List.mem_dedup.2 hm))
        · exact ih hR.2 hfind hn

/-- Whatever slots hold, the search finds the member itself exactly if no slot holds a node strictly between
    the member and the point, and such a node otherwise. Where the known nodes are in order, each taken where
    it stands last, no other such node is farther ahead of the member. -/
theorem closestPreceding_farthest (t : Table) (self : Node) (id : RingId) :
    (t.closestPreceding self id = self ↔
      ∀ i n, t.finger i = some n → ¬n.id.between self.id id = true) ∧
    (t.closestPreceding self id ≠ self →
      (t.closestPreceding self id).id.between self.id id = true ∧
        ∃ i, t.finger i = some (t.closestPreceding self id)) ∧
    (t.Ascending self → ∀ i n, t.finger i = some n → n.id.between self.id id = true →
      self.id.dist n.id ≤ self.id.dist (t.closestPreceding self id).id) := by
  refine ⟨closestPreceding_eq_self_iff, (closestPreceding_eq rfl).resolve_left, ?_⟩
  intro hasc i n hi hb
  have hn : n ∈ t.known := mem_known.2 ⟨i, hi⟩
  cases hfind : t.known.reverse.find? fun n => n.id.between self.id id with
  | none => exact absurd hb (List.find?_eq_none.1 hfind n (List.mem_reverse.2 hn))
  | some r =>
    have hr : t.closestPreceding self id = r := by
      rw [known, ← List.filterMap_reverse] at hfind
      rw [closestPreceding, hfind, Option.getD_some]
    rw [hr]
    rcases find?_reverse_of_pairwise hasc hfind hn hb with rfl | hlt
    · exact Nat.le_refl _
    · exact Nat.le_of_lt hlt

/-- The slots of a member just before the start of the ring. The node of slot 3 stands in slot 0, too, where
    it is out of order. -/
def crooked : Table where
  fingers := [some ⟨.ofNat 9, "d"⟩, some ⟨.ofNat 5, "b"⟩, none, some ⟨.ofNat 9, "d"⟩,
    some ⟨.ofNat 12, "e"⟩] ++ List.replicate 251 none
  length_fingers := by rw [List.length_append, List.length_replicate]; rfl
  predecessor := none

theorem closestPreceding_farthest_crooked :
    (crooked.closestPreceding ⟨.last, "a"⟩ (.ofNat 5) = ⟨.last, "a"⟩ ∧
      ∀ i n, crooked.finger i = some n → ¬n.id.between .last (.ofNat 5) = true) ∧
    (crooked.closestPreceding ⟨.last, "a"⟩ (.ofNat 10) = ⟨.ofNat 9, "d"⟩ ∧
      (RingId.ofNat 9).between .last (.ofNat 10) = true) ∧
    crooked.Ascending ⟨.last, "a"⟩ ∧ crooked.finger 1 = some ⟨.ofNat 5, "b"⟩ ∧
    (RingId.ofNat 5).between .last (.ofNat 10) = true ∧
    RingId.last.dist (.ofNat 5) ≤ RingId.last.dist (.ofNat 9) := by
  obtain ⟨hnone, -, -⟩ := closestPreceding_farthest crooked ⟨.last, "a"⟩ (.ofNat 5)
  obtain ⟨-, hfound, hfar⟩ := closestPreceding_farthest crooked ⟨.last, "a"⟩ (.ofNat 10)
  have hself : crooked.closestPreceding ⟨.last, "a"⟩ (.ofNat 5) = ⟨.last, "a"⟩ := by decide +kernel
  have hclosest : crooked.closestPreceding ⟨.last, "a"⟩ (.ofNat 10) = ⟨.ofNat 9, "d"⟩ := by
    decide +kernel
  have hasc : crooked.Ascending ⟨.last, "a"⟩ := by decide +kernel
  have h1 : crooked.finger 1 = some ⟨.ofNat 5, "b"⟩ := by decide +kernel
  have hbetween : (RingId.ofNat 5).between .last (.ofNat 10) = true := by decide +kernel
  have hfound := hfound (by decide +kernel)
  have hle := hfar hasc 1 _ h1 hbetween
  rw [hclosest] at hfound hle
  exact ⟨⟨hself, hnone.1 hself⟩, ⟨hclosest, hfound.1⟩, hasc, h1, hbetween, hle⟩

end RingOverlay.Table
