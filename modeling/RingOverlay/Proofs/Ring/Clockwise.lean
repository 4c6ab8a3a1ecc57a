import Mathlib.Data.List.MinMax
import RingOverlay.Proofs.RingId.Arc

/-!
# `Ring.Clockwise` — who is next, who is before, who owns a point

What the members of a ring should know of one another, computed from their points alone. Members are
known by their positions; `place` gives the point of each. The statements about the protocol compare the
members' tables with the functions of this module.

## Contents
- **Specification.** `Distinct`, `owner?`, `next?`, `prev?`.
- **Readings.** Each as "no member lies between", and when there is none.
- **Neighbours.** `prev?` undoes `next?`, and an owner is the end of the arc in which a point lies.
- **One member more.** What a newcomer changes for the others.
- **Counting.** `within`, the number of members inside an arc, which falls when the arc is cut.
-/

namespace RingOverlay.Ring

/-! ## Specification -/

/-- Members with pairwise different points, each counted once. -/
structure Distinct (place : Nat → RingId) (ms : List Nat) : Prop where
  nodup : ms.Nodup
  place_inj : ∀ k ∈ ms, ∀ l ∈ ms, place k = place l → k = l

/-- The first member at or clockwise after a point. -/
def owner? (place : Nat → RingId) (ms : List Nat) (id : RingId) : Option Nat :=
  ms.argmin fun k => id.dist (place k)

/-- The first other member clockwise after a member. -/
def next? (place : Nat → RingId) (ms : List Nat) (k : Nat) : Option Nat :=
  (ms.erase k).argmin fun l => (place k).dist (place l)

/-- The first other member anticlockwise before a member. -/
def prev? (place : Nat → RingId) (ms : List Nat) (k : Nat) : Option Nat :=
  (ms.erase k).argmin fun l => (place l).dist (place k)

/-- The number of members strictly inside an arc. -/
def within (place : Nat → RingId) (ms : List Nat) (lo hi : RingId) : Nat :=
  ms.countP fun j => (place j).between lo hi

/-! ## Readings -/

/-- With values that differ, the least one decides. -/
theorem argmin_eq_some_iff {α : Type} {f : α → Nat} {l : List α} {a : α}
    (hf : ∀ b ∈ l, ∀ c ∈ l, f b = f c → b = c) :
    l.argmin f = some a ↔ a ∈ l ∧ ∀ b ∈ l, f a ≤ f b := by
  constructor
  · intro h
    refine ⟨List.argmin_mem h, ?_⟩
    intro b hb
    exact List.le_of_mem_argmin hb h
  · rintro ⟨ha, hle⟩
    cases h : l.argmin f with
    | none =>
      rw [List.argmin_eq_none] at h
      rw [h] at ha
      cases ha
    | some b =>
      have hb := List.argmin_mem h
      have hba := List.le_of_mem_argmin ha h
      rw [hf b hb a ha (Nat.le_antisymm hba (hle b hb))]

variable {place : Nat → RingId} {ms : List Nat}

/-- Some of the members. -/
theorem Distinct.sublist (h : Distinct place ms) {ms' : List Nat} (hs : ms'.Sublist ms) :
    Distinct place ms' where
  nodup := h.nodup.sublist hs
  place_inj k hk l hl := h.place_inj k (hs.subset hk) l (hs.subset hl)

/-- Only the points of the members matter. -/
theorem Distinct.congr (h : Distinct place ms) {place' : Nat → RingId}
    (he : ∀ k ∈ ms, place' k = place k) : Distinct place' ms where
  nodup := h.nodup
  place_inj k hk l hl hkl := h.place_inj k hk l hl (by rw [← he k hk, ← he l hl, hkl])

theorem mem_erase_iff (h : Distinct place ms) {k l : Nat} : l ∈ ms.erase k ↔ l ≠ k ∧ l ∈ ms :=
  h.nodup.mem_erase_iff

theorem place_ne (h : Distinct place ms) {k l : Nat} (hk : k ∈ ms) (hl : l ∈ ms) (hne : l ≠ k) :
    place k ≠ place l :=
  fun he => hne (h.place_inj k hk l hl he).symm

theorem owner?_eq_some_iff (h : Distinct place ms) {id : RingId} {l : Nat} :
    owner? place ms id = some l ↔ l ∈ ms ∧ ∀ j ∈ ms, id.dist (place l) ≤ id.dist (place j) :=
  argmin_eq_some_iff fun b hb c hc he => h.place_inj b hb c hc (RingId.dist_right_injective he)

/-- The next member is the one with nobody between. -/
theorem next?_eq_some_iff (h : Distinct place ms) {k l : Nat} (hk : k ∈ ms) :
    next? place ms k = some l ↔
      l ∈ ms ∧ l ≠ k ∧ ∀ j ∈ ms, ¬(place j).between (place k) (place l) = true := by
  rw [next?, argmin_eq_some_iff fun b hb c hc he =>
    h.place_inj b (List.mem_of_mem_erase hb) c (List.mem_of_mem_erase hc)
      (RingId.dist_right_injective he), mem_erase_iff h]
  constructor
  · rintro ⟨⟨hne, hl⟩, hmin⟩
    refine ⟨hl, hne, ?_⟩
    intro j hj hb
    rw [RingId.between_iff_dist (place_ne h hk hl hne)] at hb
    have hjk : j ≠ k := by
      rintro rfl
      rw [RingId.dist_self] at hb
      omega
    have hle := hmin j ((mem_erase_iff h).2 ⟨hjk, hj⟩)
    omega
  · rintro ⟨hl, hne, hno⟩
    refine ⟨⟨hne, hl⟩, ?_⟩
    intro j hj
    obtain ⟨hjk, hj⟩ := (mem_erase_iff h).1 hj
    have hb := hno j hj
    rw [RingId.between_iff_dist (place_ne h hk hl hne)] at hb
    have hpos := RingId.dist_pos_iff.2 (place_ne h hk hj hjk)
    omega

/-- The previous member is the one with nobody between. -/
theorem prev?_eq_some_iff (h : Distinct place ms) {k l : Nat} (hk : k ∈ ms) :
    prev? place ms k = some l ↔
      l ∈ ms ∧ l ≠ k ∧ ∀ j ∈ ms, ¬(place j).between (place l) (place k) = true := by
  rw [prev?, argmin_eq_some_iff fun b hb c hc he =>
    h.place_inj b (List.mem_of_mem_erase hb) c (List.mem_of_mem_erase hc)
      (RingId.dist_left_injective he), mem_erase_iff h]
  -- both sides compare the arcs that end at `k`
  have hval : ∀ j ∈ ms, j ≠ k → l ∈ ms → l ≠ k → ((place j).between (place l) (place k) = true ↔
      (place j).dist (place k) < (place l).dist (place k)) := fun j hj hjk hl hne =>
    RingId.between_iff_dist_start (place_ne h hk hj hjk).symm (place_ne h hk hl hne).symm
  constructor
  · rintro ⟨⟨hne, hl⟩, hmin⟩
    refine ⟨hl, hne, ?_⟩
    intro j hj hb
    have hjk : j ≠ k := by
      rintro rfl
      exact RingId.not_between_right _ _ hb
    have hle := hmin j ((mem_erase_iff h).2 ⟨hjk, hj⟩)
    rw [hval j hj hjk hl hne] at hb
    omega
  · rintro ⟨hl, hne, hno⟩
    refine ⟨⟨hne, hl⟩, ?_⟩
    intro j hj
    obtain ⟨hjk, hj⟩ := (mem_erase_iff h).1 hj
    exact Nat.le_of_not_lt fun hlt => hno j hj ((hval j hj hjk hl hne).2 hlt)

/-- Only a lone member has nobody next to it. -/
theorem next?_eq_none_iff {k : Nat} (hk : k ∈ ms) : next? place ms k = none ↔ ms = [k] := by
  rw [next?, List.argmin_eq_none, List.erase_eq_nil_iff]
  constructor
  · rintro (rfl | h)
    · cases hk
    · exact h
  · exact .inr

theorem prev?_eq_none_iff {k : Nat} (hk : k ∈ ms) : prev? place ms k = none ↔ ms = [k] := by
  rw [prev?, List.argmin_eq_none, List.erase_eq_nil_iff]
  constructor
  · rintro (rfl | h)
    · cases hk
    · exact h
  · exact .inr

/-! ## Neighbours -/

/-- Two members are neighbours in either reading. -/
theorem prev?_eq_some_iff_next? (h : Distinct place ms) {k l : Nat} (hk : k ∈ ms) (hl : l ∈ ms) :
    prev? place ms l = some k ↔ next? place ms k = some l := by
  rw [prev?_eq_some_iff h hl, next?_eq_some_iff h hk]
  constructor
  · rintro ⟨-, hne, hno⟩
    exact ⟨hl, hne.symm, hno⟩
  · rintro ⟨-, hne, hno⟩
    exact ⟨hk, hne.symm, hno⟩

/-- Among at least two members each has a next one. -/
theorem exists_next? (place : Nat → RingId) {k : Nat} (hk : k ∈ ms) (hn : 2 ≤ ms.length) :
    ∃ l, next? place ms k = some l := by
  cases h : next? place ms k with
  | none =>
    rw [next?_eq_none_iff hk] at h
    rw [h, List.length_singleton] at hn
    omega
  | some l => exact ⟨l, rfl⟩

/-- A point on the arc up to the next member belongs to that member. -/
theorem owner?_of_betweenIncl (h : Distinct place ms) {k l : Nat} {id : RingId} (hk : k ∈ ms)
    (hl : next? place ms k = some l) (hid : id.betweenIncl (place k) (place l) = true) :
    owner? place ms id = some l := by
  obtain ⟨hlm, hne, hno⟩ := (next?_eq_some_iff h hk).1 hl
  have hkl := place_ne h hk hlm hne
  rw [owner?_eq_some_iff h]
  refine ⟨hlm, ?_⟩
  intro j hj
  have hj' := hno j hj
  rw [RingId.betweenIncl_iff, RingId.between_iff_val, ← RingId.val_inj] at hid
  rw [RingId.between_iff_val] at hj'
  rw [← RingId.val_ne_iff] at hkl
  have h1 := RingId.dist_spec id (place l)
  have h2 := RingId.dist_spec id (place j)
  have h3 := RingId.val_lt (place j)
  have h4 := RingId.val_lt (place l)
  have h5 := RingId.val_lt id
  have h6 := RingId.val_lt (place k)
  omega

/-- A lone member owns every point. -/
theorem owner?_singleton (k : Nat) (id : RingId) : owner? place [k] id = some k :=
  List.argmin_singleton

/-- The points that a member owns are those on the arc from the previous member. -/
theorem owner?_eq_some_iff_betweenIncl (h : Distinct place ms) {k p : Nat} {id : RingId} (hk : k ∈ ms)
    (hp : prev? place ms k = some p) :
    owner? place ms id = some k ↔ id.betweenIncl (place p) (place k) = true := by
  obtain ⟨hpm, hpk, -⟩ := (prev?_eq_some_iff h hk).1 hp
  constructor
  · intro hown
    have hmin := ((owner?_eq_some_iff h).1 hown).2 p hpm
    have hne := place_ne h hk hpm hpk
    have h1 := RingId.dist_spec id (place k)
    have h2 := RingId.dist_spec id (place p)
    have h3 := RingId.val_lt id
    have h4 := RingId.val_lt (place k)
    have h5 := RingId.val_lt (place p)
    rw [← RingId.val_ne_iff] at hne
    rw [RingId.betweenIncl_iff, RingId.between_iff_val, ← RingId.val_inj]
    omega
  · exact owner?_of_betweenIncl h hpm ((prev?_eq_some_iff_next? h hpm hk).1 hp)

/-! ## One member more -/

section Newcomer

variable {k s p : Nat} {id : RingId}

/-- What the newcomer does not own, its owner goes on owning. -/
theorem owner?_of_owner?_cons (h : Distinct place (k :: ms)) {o : Nat} (hne : o ≠ k)
    (ho : owner? place (k :: ms) id = some o) : owner? place ms id = some o := by
  obtain ⟨hom, hmin⟩ := (owner?_eq_some_iff h).1 ho
  rw [owner?_eq_some_iff (h.sublist (List.sublist_cons_self k ms))]
  exact ⟨List.mem_of_ne_of_mem hne hom, fun j hj => hmin j (List.mem_cons_of_mem k hj)⟩

/-- What the newcomer owns belonged to the member after it. -/
theorem owner?_of_newcomer (h : Distinct place (k :: ms)) (hs : next? place (k :: ms) k = some s)
    (ho : owner? place (k :: ms) id = some k) : owner? place ms id = some s := by
  have hkm : k ∈ k :: ms := List.mem_cons_self ..
  have hmin := ((owner?_eq_some_iff h).1 ho).2
  obtain ⟨hsm, hsk, hno⟩ := (next?_eq_some_iff h hkm).1 hs
  rw [owner?_eq_some_iff (h.sublist (List.sublist_cons_self k ms))]
  refine ⟨List.mem_of_ne_of_mem hsk hsm, ?_⟩
  intro j hj
  have hjm := List.mem_cons_of_mem k hj
  have hno' := hno j hjm
  have hks := place_ne h hkm hsm hsk
  have h1 := hmin j hjm
  have h2 := hmin s hsm
  rw [RingId.between_iff_dist hks] at hno'
  -- from the point the way to any member passes the newcomer
  have hjk : place k ≠ place j := by
    refine place_ne h hkm hjm ?_
    rintro rfl
    exact (List.nodup_cons.1 h.nodup).1 hj
  have hpos := RingId.dist_pos_iff.2 hjk
  have d1 := RingId.dist_spec id (place j)
  have d2 := RingId.dist_spec id (place s)
  have d3 := RingId.dist_spec id (place k)
  have d4 := RingId.dist_spec (place k) (place j)
  have d5 := RingId.dist_spec (place k) (place s)
  have v1 := RingId.val_lt (place j)
  have v2 := RingId.val_lt (place s)
  have v3 := RingId.val_lt (place k)
  have v4 := RingId.val_lt id
  omega

/-- Only the member after the newcomer gets another predecessor. -/
theorem prev?_cons_of_ne (h : Distinct place (k :: ms)) (hs : next? place (k :: ms) k = some s)
    {l : Nat} (hl : l ∈ ms) (hne : l ≠ s) : prev? place (k :: ms) l = prev? place ms l := by
  have hd := h.sublist (List.sublist_cons_self k ms)
  have hkm : k ∈ k :: ms := List.mem_cons_self ..
  have hlm := List.mem_cons_of_mem k hl
  cases hx : prev? place (k :: ms) l with
  | none =>
    rw [prev?_eq_none_iff hlm, List.cons.injEq] at hx
    rw [hx.2] at hl
    cases hl
  | some x =>
    obtain ⟨hxm, hxl, hno⟩ := (prev?_eq_some_iff h hlm).1 hx
    have hxk : x ≠ k := by
      rintro rfl
      rw [prev?_eq_some_iff_next? h hkm hlm, hs, Option.some_inj] at hx
      exact hne hx.symm
    rw [eq_comm, prev?_eq_some_iff hd hl]
    exact ⟨List.mem_of_ne_of_mem hxk hxm, hxl, fun j hj => hno j (List.mem_cons_of_mem k hj)⟩

/-- The member after the newcomer had the one before it as predecessor. -/
theorem prev?_of_newcomer (h : Distinct place (k :: ms)) (hs : next? place (k :: ms) k = some s)
    (hp : prev? place (k :: ms) k = some p) (hn : ms ≠ [s]) : prev? place ms s = some p := by
  have hd := h.sublist (List.sublist_cons_self k ms)
  have hkm : k ∈ k :: ms := List.mem_cons_self ..
  obtain ⟨hsm, hsk, hno⟩ := (next?_eq_some_iff h hkm).1 hs
  have hsms := List.mem_of_ne_of_mem hsk hsm
  cases hx : prev? place ms s with
  | none => exact absurd ((prev?_eq_none_iff hsms).1 hx) hn
  | some x =>
    obtain ⟨hxm, hxs, hnox⟩ := (prev?_eq_some_iff hd hsms).1 hx
    have hxm' := List.mem_cons_of_mem k hxm
    have hxk : x ≠ k := by
      rintro rfl
      exact (List.nodup_cons.1 h.nodup).1 hxm
    -- nobody is between `x` and the newcomer, which comes before `s`
    rw [← hp, eq_comm, prev?_eq_some_iff h hkm]
    refine ⟨hxm', hxk, ?_⟩
    intro j hj hb
    have hjk : j ≠ k := by
      rintro rfl
      exact RingId.not_between_right _ _ hb
    have h1 := hnox j (List.mem_of_ne_of_mem hjk hj)
    have h2 := hno x hxm'
    have h3 := place_ne h hkm hxm' hxk
    have h4 := place_ne h hsm hxm' hxs
    rw [← RingId.val_ne_iff] at h3 h4
    rw [RingId.between_iff_val] at h1 h2 hb
    omega

end Newcomer

/-! ## Counting -/

/-- A wider test that some member passes and the narrower one does not counts more. -/
theorem countP_lt_countP {p q : Nat → Bool} (hpq : ∀ x ∈ ms, p x = true → q x = true)
    {y : Nat} (hy : y ∈ ms) (hqy : q y = true) (hpy : ¬p y = true) :
    ms.countP p < ms.countP q := by
  obtain ⟨l, r, rfl⟩ := List.append_of_mem hy
  have hl : l.countP p ≤ l.countP q :=
    List.countP_mono_left fun x hx => hpq x (List.mem_append_left _ hx)
  have hr : r.countP p ≤ r.countP q :=
    List.countP_mono_left fun x hx => hpq x (List.mem_append_right _ (List.mem_cons_of_mem _ hx))
  rw [List.countP_append, List.countP_append, List.countP_cons_of_neg hpy,
    List.countP_cons_of_pos hqy]
  omega

variable {lo hi : RingId}

/-- Fewer members are inside the first part of an arc that is cut at a member. -/
theorem within_left_lt {c : Nat} (hc : c ∈ ms) (h : (place c).between lo hi = true) :
    within place ms lo (place c) < within place ms lo hi := by
  apply countP_lt_countP _ hc h
  · exact RingId.not_between_right _ _
  · intro j _ hj
    exact RingId.between_of_between_left h hj

/-- Fewer members are inside the second part of an arc that is cut at a member. -/
theorem within_right_lt {c : Nat} (hc : c ∈ ms) (h : (place c).between lo hi = true) :
    within place ms (place c) hi < within place ms lo hi := by
  apply countP_lt_countP _ hc h
  · exact RingId.not_between_left _ _
  · intro j _ hj
    exact RingId.between_of_between_right h hj

/-- Not all members are inside an arc that leaves one out. -/
theorem within_lt_length {j : Nat} (hj : j ∈ ms) (h : ¬(place j).between lo hi = true) :
    within place ms lo hi < ms.length := by
  have hall : ms.countP (fun _ => true) = ms.length := congrFun List.countP_true ms
  rw [← hall]
  exact countP_lt_countP (fun _ _ _ => rfl) hj rfl h

end RingOverlay.Ring
