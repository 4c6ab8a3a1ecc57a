import Mathlib.Logic.Function.Iterate
import RingOverlay.Proofs.Ring.Clockwise

/-!
# `Ring.Links` — successors and predecessors without tables

What the protocol does to the immediate neighbours that members know, with members for nodes and
functions for tables. The neighbours known may be out of date: a newcomer is at first known to one of its
two neighbours only. `Sound` is what holds all the same, after any steps in any order.

`Sound` names one member, the founder. No arc from a member to its successor, and none from a predecessor
to its member, passes over the founder. Every step cuts such an arc, and a part of an arc passes over
nothing that the arc does not pass over, so the property is kept without any knowledge of who is where.

## Contents
- **State.** `Links`.
- **Steps.** `approach`, `hear`, `stabilize`, and the ways to take a newcomer in: `pair`, `Entry`.
- **The invariant.** `Clear`, `Sound`; `Fits`, the same for any relation that parts of an arc inherit.
- **Kept by each step.** For `Fits`, and for `Sound` as its case.
- **Walks.** `Sound.walk`: successors lead to the founder, clockwise and at most once round.
- **The cycle.** `Sound.on_cycle_iff`: there is no other cycle than the founder's.
-/

namespace RingOverlay.Ring

/-- The successor and the predecessor that each member knows. -/
structure Links where
  succ : Nat → Nat
  pred : Nat → Nat

namespace Links

variable (place : Nat → RingId)

/-! ## Steps -/

/-- `k` takes `c` as successor where it lies before the one that `k` knows. -/
def approach (L : Links) (k c : Nat) : Links :=
  if (place c).between (place k) (place (L.succ k)) then
    { L with succ := Function.update L.succ k c }
  else L

/-- `l` learns of `k` and takes it as predecessor where it lies behind the one that `l` knows. -/
def hear (L : Links) (l k : Nat) : Links :=
  if (place k).between (place (L.pred l)) (place l) then
    { L with pred := Function.update L.pred l k }
  else L

/-- `k` takes over its successor's predecessor. -/
def closeIn (L : Links) (k : Nat) : Links := L.approach place k (L.pred (L.succ k))

/-- `k` asks its successor for that one's predecessor, and makes itself known to the successor. -/
def stabilize (L : Links) (k : Nat) : Links :=
  (L.closeIn place k).hear place ((L.closeIn place k).succ k) k

/-- A founder and its first newcomer. -/
def pair (b k : Nat) : Links where
  succ i := if i = b then k else b
  pred i := if i = b then k else b

/-- `k` enters behind `j`, which knows it as successor. The next member does not know it yet. -/
def insertAfter (L : Links) (j k : Nat) : Links where
  succ := Function.update (Function.update L.succ j k) k (L.succ j)
  pred := Function.update L.pred k j

/-- `k` enters before `j`, which knows it as predecessor. The member before does not know it yet. -/
def insertBefore (L : Links) (j k : Nat) : Links where
  succ := Function.update L.succ k j
  pred := Function.update (Function.update L.pred j k) k (L.pred j)

/-- `k` enters next to a member `j`, on an arc from or to `j` on which it lies. -/
inductive Entry (ms : List Nat) (L : Links) (k : Nat) : Links → Prop where
  | after {j : Nat} : j ∈ ms → (place k).between (place j) (place (L.succ j)) = true →
      Entry ms L k (L.insertAfter j k)
  | before {j : Nat} : j ∈ ms → (place k).between (place (L.pred j)) (place j) = true →
      Entry ms L k (L.insertBefore j k)

/-! ## The invariant -/

/-- Two members, the arc between which does not pass over `b`. -/
def Clear (b x y : Nat) : Prop := x ≠ y ∧ ¬(place b).between (place x) (place y) = true

/-- Every member knows members as neighbours, and no arc to a neighbour passes over `b`. -/
structure Sound (ms : List Nat) (b : Nat) (L : Links) : Prop where
  founder : b ∈ ms
  succ : ∀ k ∈ ms, L.succ k ∈ ms ∧ Clear place b k (L.succ k)
  pred : ∀ k ∈ ms, L.pred k ∈ ms ∧ Clear place b (L.pred k) k

/-- A relation of the ends of an arc that holds of both parts, too, when the arc is cut. -/
def Inherited (R : Nat → Nat → Prop) : Prop :=
  ∀ x y c, R x y → (place c).between (place x) (place y) = true → R x c ∧ R c y

/-- Every member knows members as neighbours, and the ends of each arc to a neighbour stand in `R`. -/
structure Fits (ms : List Nat) (R : Nat → Nat → Prop) (L : Links) : Prop where
  succ : ∀ k ∈ ms, L.succ k ∈ ms ∧ R k (L.succ k)
  pred : ∀ k ∈ ms, L.pred k ∈ ms ∧ R (L.pred k) k

variable {place} {ms : List Nat} {b : Nat} {L : Links}

/-- The first part of an arc that is cut at `c`. -/
theorem Clear.cut_left {x y c : Nat} (h : Clear place b x y)
    (hc : (place c).between (place x) (place y) = true) : Clear place b x c := by
  refine ⟨?_, fun hb => h.2 (RingId.between_of_between_left hc hb)⟩
  rintro rfl
  exact RingId.not_between_left _ _ hc

/-- The second part of an arc that is cut at `c`. -/
theorem Clear.cut_right {x y c : Nat} (h : Clear place b x y)
    (hc : (place c).between (place x) (place y) = true) : Clear place b c y := by
  refine ⟨?_, fun hb => h.2 (RingId.between_of_between_right hc hb)⟩
  rintro rfl
  exact RingId.not_between_right _ _ hc

theorem clear_inherited : Inherited place (Clear place b) :=
  fun _ _ _ h hc => ⟨h.cut_left hc, h.cut_right hc⟩

theorem ne_inherited : Inherited place (· ≠ ·) := by
  intro x y c _ hc
  constructor
  · rintro rfl
    exact RingId.not_between_left _ _ hc
  · rintro rfl
    exact RingId.not_between_right _ _ hc

/-- Only the points of the members matter. -/
theorem Sound.congr (h : Sound place ms b L) {place' : Nat → RingId}
    (he : ∀ k ∈ ms, place' k = place k) : Sound place' ms b L := by
  constructor
  · exact h.founder
  · intro k hk
    obtain ⟨hm, hclear⟩ := h.succ k hk
    rw [Clear, he b h.founder, he k hk, he _ hm]
    exact ⟨hm, hclear⟩
  · intro k hk
    obtain ⟨hm, hclear⟩ := h.pred k hk
    rw [Clear, he b h.founder, he k hk, he _ hm]
    exact ⟨hm, hclear⟩

/-- What holds of each member and its image still holds when one image is changed to a fitting one. -/
theorem forall_mem_update {P : Nat → Nat → Prop} {f : Nat → Nat} {a v : Nat}
    (hf : ∀ k ∈ ms, k ≠ a → P k (f k)) (hv : P a v) :
    ∀ k ∈ ms, P k (Function.update f a v k) := by
  intro k hk
  by_cases hka : k = a
  · subst hka
    rw [Function.update_self]
    exact hv
  · rw [Function.update_of_ne hka]
    exact hf k hk hka

section Fits

variable {R : Nat → Nat → Prop}

theorem Fits.mono (h : Fits ms R L) {R' : Nat → Nat → Prop} (hR : ∀ x y, R x y → R' x y) :
    Fits ms R' L where
  succ k hk := ⟨(h.succ k hk).1, hR _ _ (h.succ k hk).2⟩
  pred k hk := ⟨(h.pred k hk).1, hR _ _ (h.pred k hk).2⟩

theorem Fits.setSucc (h : Fits ms R L) {k c : Nat} (hc : c ∈ ms) (hkc : R k c) :
    Fits ms R { L with succ := Function.update L.succ k c } where
  succ := forall_mem_update (P := fun k l => l ∈ ms ∧ R k l) (fun i hi _ => h.succ i hi) ⟨hc, hkc⟩
  pred := h.pred

theorem Fits.setPred (h : Fits ms R L) {k c : Nat} (hc : c ∈ ms) (hck : R c k) :
    Fits ms R { L with pred := Function.update L.pred k c } where
  succ := h.succ
  pred := forall_mem_update (P := fun k l => l ∈ ms ∧ R l k) (fun i hi _ => h.pred i hi) ⟨hc, hck⟩

theorem Fits.approach (h : Fits ms R L) (hR : Inherited place R) {k c : Nat} (hk : k ∈ ms)
    (hc : c ∈ ms) : Fits ms R (L.approach place k c) := by
  unfold Links.approach
  split
  · next hb => exact h.setSucc hc (hR _ _ _ (h.succ k hk).2 hb).1
  · exact h

theorem Fits.hear (h : Fits ms R L) (hR : Inherited place R) {l k : Nat} (hl : l ∈ ms)
    (hk : k ∈ ms) : Fits ms R (L.hear place l k) := by
  unfold Links.hear
  split
  · next hb => exact h.setPred hk (hR _ _ _ (h.pred l hl).2 hb).2
  · exact h

theorem Fits.closeIn (h : Fits ms R L) (hR : Inherited place R) {k : Nat} (hk : k ∈ ms) :
    Fits ms R (L.closeIn place k) :=
  h.approach hR hk (h.pred _ (h.succ k hk).1).1

theorem Fits.stabilize (h : Fits ms R L) (hR : Inherited place R) {k : Nat} (hk : k ∈ ms) :
    Fits ms R (L.stabilize place k) :=
  (h.closeIn hR hk).hear hR ((h.closeIn hR hk).succ k hk).1 hk

/-- A newcomer behind `j`. -/
theorem Fits.insertAfter (h : Fits ms R L) (hR : Inherited place R) {j k : Nat} (hj : j ∈ ms)
    (hb : (place k).between (place j) (place (L.succ j)) = true) :
    Fits (k :: ms) R (L.insertAfter j k) := by
  obtain ⟨hsm, hrel⟩ := h.succ j hj
  obtain ⟨hfront, hback⟩ := hR _ _ _ hrel hb
  constructor
  · apply forall_mem_update (P := fun i l => l ∈ k :: ms ∧ R i l)
    · intro i hi hik
      refine forall_mem_update (P := fun i l => l ∈ k :: ms ∧ R i l)
        (fun i hi _ => ?_) ?_ i (List.mem_of_ne_of_mem hik hi)
      · exact ⟨List.mem_cons_of_mem _ (h.succ i hi).1, (h.succ i hi).2⟩
      · exact ⟨List.mem_cons_self .., hfront⟩
    · exact ⟨List.mem_cons_of_mem _ hsm, hback⟩
  · apply forall_mem_update (P := fun i l => l ∈ k :: ms ∧ R l i)
    · intro i hi hik
      obtain ⟨hpm, hp⟩ := h.pred i (List.mem_of_ne_of_mem hik hi)
      exact ⟨List.mem_cons_of_mem _ hpm, hp⟩
    · exact ⟨List.mem_cons_of_mem _ hj, hfront⟩

/-- A newcomer before `j`. -/
theorem Fits.insertBefore (h : Fits ms R L) (hR : Inherited place R) {j k : Nat} (hj : j ∈ ms)
    (hb : (place k).between (place (L.pred j)) (place j) = true) :
    Fits (k :: ms) R (L.insertBefore j k) := by
  obtain ⟨hpm, hrel⟩ := h.pred j hj
  obtain ⟨hfront, hback⟩ := hR _ _ _ hrel hb
  constructor
  · apply forall_mem_update (P := fun i l => l ∈ k :: ms ∧ R i l)
    · intro i hi hik
      obtain ⟨hsm, hs⟩ := h.succ i (List.mem_of_ne_of_mem hik hi)
      exact ⟨List.mem_cons_of_mem _ hsm, hs⟩
    · exact ⟨List.mem_cons_of_mem _ hj, hback⟩
  · apply forall_mem_update (P := fun i l => l ∈ k :: ms ∧ R l i)
    · intro i hi hik
      refine forall_mem_update (P := fun i l => l ∈ k :: ms ∧ R l i)
        (fun i hi _ => ?_) ?_ i (List.mem_of_ne_of_mem hik hi)
      · exact ⟨List.mem_cons_of_mem _ (h.pred i hi).1, (h.pred i hi).2⟩
      · exact ⟨List.mem_cons_self .., hback⟩
    · exact ⟨List.mem_cons_of_mem _ hpm, hfront⟩

theorem Fits.entry (h : Fits ms R L) (hR : Inherited place R) {k : Nat} {L' : Links}
    (he : Entry place ms L k L') : Fits (k :: ms) R L' := by
  cases he with
  | after hj hb => exact h.insertAfter hR hj hb
  | before hj hb => exact h.insertBefore hR hj hb

end Fits

/-! ## Kept by each step -/

theorem sound_iff : Sound place ms b L ↔ b ∈ ms ∧ Fits ms (Clear place b) L :=
  ⟨fun h => ⟨h.founder, h.succ, h.pred⟩, fun h => ⟨h.1, h.2.succ, h.2.pred⟩⟩

theorem Sound.fits (h : Sound place ms b L) : Fits ms (Clear place b) L := (sound_iff.1 h).2

/-- No member knows itself as a neighbour. -/
theorem Sound.loose (h : Sound place ms b L) : Fits ms (· ≠ ·) L := h.fits.mono fun _ _ hc => hc.1

theorem Sound.closeIn (h : Sound place ms b L) {k : Nat} (hk : k ∈ ms) :
    Sound place ms b (L.closeIn place k) :=
  sound_iff.2 ⟨h.founder, h.fits.closeIn clear_inherited hk⟩

theorem Sound.stabilize (h : Sound place ms b L) {k : Nat} (hk : k ∈ ms) :
    Sound place ms b (L.stabilize place k) :=
  sound_iff.2 ⟨h.founder, h.fits.stabilize clear_inherited hk⟩

/-- A founder and a newcomer know each other. -/
theorem Sound.pair {k : Nat} (hk : k ≠ b) : Sound place [k, b] b (Links.pair b k) := by
  have hb : ∀ i ∈ [k, b], (if i = b then k else b) ∈ [k, b] ∧ (if i = b then k else b) ≠ i := by
    intro i hi
    split
    · next hib => exact ⟨List.mem_cons_self .., hib ▸ hk⟩
    · next hib => exact ⟨List.mem_cons_of_mem _ (List.mem_singleton_self b), Ne.symm hib⟩
  -- of two members one is the founder, which is no inner point of an arc that it ends
  have hend : ∀ i ∈ [k, b], i = b ∨ (if i = b then k else b) = b := by
    intro i _
    by_cases hib : i = b
    · exact .inl hib
    · exact .inr (if_neg hib)
  constructor
  · exact List.mem_cons_of_mem _ (List.mem_singleton_self b)
  · intro i hi
    refine ⟨(hb i hi).1, (hb i hi).2.symm, ?_⟩
    rcases hend i hi with h | h
    · subst h
      exact RingId.not_between_left _ _
    · rw [show (Links.pair b k).succ i = b from h]
      exact RingId.not_between_right _ _
  · intro i hi
    refine ⟨(hb i hi).1, (hb i hi).2, ?_⟩
    rcases hend i hi with h | h
    · subst h
      exact RingId.not_between_right _ _
    · rw [show (Links.pair b k).pred i = b from h]
      exact RingId.not_between_left _ _

theorem Sound.entry (h : Sound place ms b L) {k : Nat} {L' : Links} (he : Entry place ms L k L') :
    Sound place (k :: ms) b L' :=
  sound_iff.2 ⟨List.mem_cons_of_mem k h.founder, h.fits.entry clear_inherited he⟩

/-! ## Walks -/

/-- A step to the successor leads on towards the founder, or it arrives there. -/
theorem Sound.succ_eq_or_between (h : Sound place ms b L) (hd : Distinct place ms) {k : Nat}
    (hk : k ∈ ms) :
    L.succ k = b ∨ (place (L.succ k)).between (place k) (place b) = true := by
  obtain ⟨hm, hne, hno⟩ := h.succ k hk
  by_cases hb : L.succ k = b
  · exact .inl hb
  · refine .inr ?_
    have hpb := place_ne hd h.founder hm hb
    have hpk := place_ne hd hk hm hne.symm
    rw [← RingId.val_ne_iff] at hpb hpk
    rw [RingId.between_iff_val] at hno ⊢
    omega

/-- Successors lead from every member to the founder, each step but the last away from it. -/
theorem Sound.walk (h : Sound place ms b L) (hd : Distinct place ms) {k : Nat} (hk : k ∈ ms) :
    ∃ i, i < ms.length ∧ L.succ^[i + 1] k = b ∧ ∀ j < i,
      (place b).dist (place (L.succ^[j] k)) < (place b).dist (place (L.succ^[j + 1] k)) := by
  -- the number of members on the way to the founder falls with every step that does not arrive
  suffices ∀ m k, k ∈ ms → within place ms (place k) (place b) ≤ m →
      ∃ i ≤ m, L.succ^[i + 1] k = b ∧ ∀ j < i,
        (place b).dist (place (L.succ^[j] k)) < (place b).dist (place (L.succ^[j + 1] k)) by
    obtain ⟨i, hi, hw⟩ := this _ k hk (Nat.le_refl _)
    exact ⟨i, Nat.lt_of_le_of_lt hi (within_lt_length hk (RingId.not_between_left _ _)), hw⟩
  intro m
  induction m with
  | zero =>
    intro k hk hm
    refine ⟨0, Nat.le_refl 0, ?_, fun j hj => absurd hj (Nat.not_lt_zero j)⟩
    rcases h.succ_eq_or_between hd hk with hb | hb
    · exact hb
    · have hfall := within_right_lt (h.succ k hk).1 hb
      omega
  | succ m ih =>
    intro k hk hm
    rcases h.succ_eq_or_between hd hk with hb | hb
    · exact ⟨0, Nat.zero_le _, hb, fun j hj => absurd hj (Nat.not_lt_zero j)⟩
    · have hfall := within_right_lt (h.succ k hk).1 hb
      obtain ⟨i, hi, harr, hgrow⟩ := ih (L.succ k) (h.succ k hk).1 (by omega)
      refine ⟨i + 1, by omega, harr, ?_⟩
      intro j hj
      cases j with
      | zero => exact RingId.dist_lt_dist_of_between hb
      | succ j => exact hgrow j (by omega)

/-! ## The cycle -/

/-- The members that successors lead back to are those that they lead to from the founder. -/
theorem Sound.on_cycle_iff (h : Sound place ms b L) (hd : Distinct place ms) {k : Nat}
    (hk : k ∈ ms) : (∃ i, L.succ^[i + 1] k = k) ↔ ∃ j, L.succ^[j] b = k := by
  constructor
  · rintro ⟨i, hi⟩
    obtain ⟨a, -, ha, -⟩ := h.walk hd hk
    -- going round often enough from `k` passes the founder and ends at `k`
    have hround : ∀ c, L.succ^[c * (i + 1)] k = k := by
      intro c
      induction c with
      | zero => rw [Nat.zero_mul]; rfl
      | succ c ih => rw [Nat.succ_mul, Function.iterate_add_apply, hi, ih]
    have hle : a + 1 ≤ (a + 1) * (i + 1) := Nat.le_mul_of_pos_right _ (Nat.succ_pos i)
    refine ⟨(a + 1) * (i + 1) - (a + 1), ?_⟩
    rw [← ha, ← Function.iterate_add_apply, Nat.sub_add_cancel hle, hround]
  · rintro ⟨j, rfl⟩
    obtain ⟨a, -, ha, -⟩ := h.walk hd h.founder
    refine ⟨a, ?_⟩
    rw [← Function.iterate_add_apply, Nat.add_comm, Function.iterate_add_apply, ha]

end Links

end RingOverlay.Ring
