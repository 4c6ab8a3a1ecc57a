import RingOverlay.Proofs.Ring.Newcomer

/-!
# `Ring.Gap` — how an exact ring closes over a lost member

A ring of at least three members loses one, `c`. Only its two neighbours know it as a neighbour, so only
what these two know is wrong: `Gap` is the successor that the one before it knows, and the predecessor
that the one after it knows. The one before may fall back to any survivor, or to none; then its own
predecessor, which still knows it, attaches it again. From there it walks back, member by member, to the
one after the gap. Every round that does not find the gap closed brings it a step closer.

## Contents
- **The other members.** `Lost`, and what the exact links are among the survivors.
- **The ring without it.** `bridge`, `Lost.exact_bridge`.
- **The gap.** `Gap`, its steps `check`, `stabilize`, `tend`, and what they keep, `Fits`.
- **Noticing.** `Noticed`, after a round in which the two neighbours had their turns.
- **Closing the gap.** `rank`, `rank_tend_lt`, `rank_round_le`, `rounds_eq_closed`.
-/

namespace RingOverlay.Ring

open Links (Exact Mutual)

/-! ## The other members -/

/-- A member `c` of a ring with exact links and two members more. The member before it has, perhaps,
    another survivor to fall back to. -/
structure Lost (place : Nat → RingId) (ms : List Nat) (L : Links) (c : Nat) (spare : Option Nat) :
    Prop where
  distinct : Distinct place ms
  exact : Exact place ms L
  mem : c ∈ ms
  crowd : 3 ≤ ms.length
  spare : ∀ m, spare = some m → m ∈ ms.erase c ∧ m ≠ L.pred c

namespace Lost

variable {place : Nat → RingId} {ms : List Nat} {L : Links} {c k : Nat} {spare : Option Nat}

theorem mem_erase (h : Lost place ms L c spare) : k ∈ ms.erase c ↔ k ≠ c ∧ k ∈ ms :=
  mem_erase_iff h.distinct

theorem distinct_survivors (h : Lost place ms L c spare) : Distinct place (ms.erase c) :=
  h.distinct.sublist List.erase_sublist

theorem succ (h : Lost place ms L c spare) (hk : k ∈ ms) : L.succ k ∈ ms ∧ L.succ k ≠ k := by
  obtain ⟨hm, hne, -⟩ := (next?_eq_some_iff h.distinct hk).1 (h.exact k hk).1
  exact ⟨hm, hne⟩

theorem pred (h : Lost place ms L c spare) (hk : k ∈ ms) : L.pred k ∈ ms ∧ L.pred k ≠ k := by
  obtain ⟨hm, hne, -⟩ := (prev?_eq_some_iff h.distinct hk).1 (h.exact k hk).2
  exact ⟨hm, hne⟩

theorem pred_succ (h : Lost place ms L c spare) (hk : k ∈ ms) : L.pred (L.succ k) = k :=
  h.exact.mutual h.distinct k hk

theorem succ_pred (h : Lost place ms L c spare) (hk : k ∈ ms) : L.succ (L.pred k) = k :=
  (h.exact.sound h.distinct hk).succ_pred h.distinct (h.exact.mutual h.distinct) hk

/-- Nobody is between a member and its predecessor. -/
theorem not_between_pred (h : Lost place ms L c spare) (hk : k ∈ ms) {j : Nat} (hj : j ∈ ms) :
    ¬(place j).between (place (L.pred k)) (place k) = true :=
  ((prev?_eq_some_iff h.distinct hk).1 (h.exact k hk).2).2.2 j hj

theorem front_mem (h : Lost place ms L c spare) : L.pred c ∈ ms.erase c :=
  h.mem_erase.2 ⟨(h.pred h.mem).2, (h.pred h.mem).1⟩

theorem back_mem (h : Lost place ms L c spare) : L.succ c ∈ ms.erase c :=
  h.mem_erase.2 ⟨(h.succ h.mem).2, (h.succ h.mem).1⟩

/-- Of three members or more, two different ones are next to `c`. -/
theorem front_ne_back (h : Lost place ms L c spare) : L.pred c ≠ L.succ c := by
  intro he
  have hp := h.pred h.mem
  -- a third member would lie on one of the two arcs between `c` and its one neighbour
  have hsub : ms ⊆ [c, L.pred c] := by
    intro j hj
    by_contra hj'
    simp only [List.mem_cons, List.not_mem_nil, or_false, not_or] at hj'
    have hback := h.not_between_pred h.mem hj
    have hfront := h.not_between_pred hp.1 hj
    rw [he, h.pred_succ h.mem, ← he] at hfront
    have h1 := place_ne h.distinct h.mem hj hj'.1
    have h2 := place_ne h.distinct hp.1 hj hj'.2
    have h3 := place_ne h.distinct h.mem hp.1 hp.2
    rw [← RingId.val_ne_iff] at h1 h2 h3
    rw [RingId.between_iff_val] at hback hfront
    omega
  have hlen := (List.subperm_of_subset h.distinct.nodup hsub).length_le
  exact absurd h.crowd (Nat.not_le.2 (Nat.lt_succ_of_le hlen))

/-- The survivors but the one before `c` know survivors as successors. -/
theorem succ_survivor (h : Lost place ms L c spare) (hk : k ∈ ms.erase c) (hne : k ≠ L.pred c) :
    L.succ k ∈ ms.erase c := by
  have hkm := List.mem_of_mem_erase hk
  refine h.mem_erase.2 ⟨?_, (h.succ hkm).1⟩
  rintro he
  exact hne (he ▸ (h.pred_succ hkm).symm)

/-- The survivors but the one after `c` know survivors as predecessors. -/
theorem pred_survivor (h : Lost place ms L c spare) (hk : k ∈ ms.erase c) (hne : k ≠ L.succ c) :
    L.pred k ∈ ms.erase c := by
  have hkm := List.mem_of_mem_erase hk
  refine h.mem_erase.2 ⟨?_, (h.pred hkm).1⟩
  rintro he
  exact hne (he ▸ (h.succ_pred hkm).symm)

/-- No survivor has the one before `c` as predecessor. -/
theorem pred_ne_front (h : Lost place ms L c spare) (hk : k ∈ ms.erase c) : L.pred k ≠ L.pred c := by
  intro he
  obtain ⟨hkc, hkm⟩ := h.mem_erase.1 hk
  rw [← h.succ_pred hkm, he, h.succ_pred h.mem] at hkc
  exact hkc rfl

/-- Nor the one after `c` as successor. -/
theorem succ_ne_back (h : Lost place ms L c spare) (hk : k ∈ ms.erase c) : L.succ k ≠ L.succ c := by
  intro he
  obtain ⟨hkc, hkm⟩ := h.mem_erase.1 hk
  rw [← h.pred_succ hkm, he, h.pred_succ h.mem] at hkc
  exact hkc rfl

/-- Seen from the member before `c`, the predecessor of a survivor comes before that survivor. -/
theorem between_pred (h : Lost place ms L c spare) (hk : k ∈ ms.erase c) (hne : k ≠ L.pred c) :
    (place (L.pred k)).between (place (L.pred c)) (place k) = true := by
  have hkm := List.mem_of_mem_erase hk
  have hp := h.pred hkm
  have hf := (h.pred h.mem).1
  have hno := h.not_between_pred hkm hf
  have h1 := place_ne h.distinct hkm hp.1 hp.2
  have h2 := place_ne h.distinct hf hp.1 (h.pred_ne_front hk)
  have h3 := place_ne h.distinct hf hkm hne
  rw [← RingId.val_ne_iff] at h1 h2 h3
  rw [RingId.between_iff_val] at hno ⊢
  omega

end Lost

/-! ## The ring without it -/

/-- The links without `c`: the members on either side of it know each other. -/
def Links.bridge (L : Links) (c : Nat) : Links where
  succ := Function.update L.succ (L.pred c) (L.succ c)
  pred := Function.update L.pred (L.succ c) (L.pred c)

section Bridge

variable {place : Nat → RingId} {ms : List Nat} {L : Links} {c : Nat} {spare : Option Nat}

theorem Links.succ_bridge_front : (L.bridge c).succ (L.pred c) = L.succ c := Function.update_self ..

theorem Links.succ_bridge_of_ne {k : Nat} (hk : k ≠ L.pred c) : (L.bridge c).succ k = L.succ k :=
  Function.update_of_ne hk ..

theorem Links.pred_bridge_back : (L.bridge c).pred (L.succ c) = L.pred c := Function.update_self ..

theorem Links.pred_bridge_of_ne {k : Nat} (hk : k ≠ L.succ c) : (L.bridge c).pred k = L.pred k :=
  Function.update_of_ne hk ..

theorem Lost.succ_bridge (h : Lost place ms L c spare) {k : Nat} (hk : k ∈ ms.erase c) :
    (L.bridge c).succ k ∈ ms.erase c := by
  by_cases hkp : k = L.pred c
  · rw [hkp, Links.succ_bridge_front]
    exact h.back_mem
  · rw [Links.succ_bridge_of_ne hkp]
    exact h.succ_survivor hk hkp

theorem Lost.mutual_bridge (h : Lost place ms L c spare) : Mutual (ms.erase c) (L.bridge c) := by
  intro k hk
  by_cases hkp : k = L.pred c
  · rw [hkp, Links.succ_bridge_front, Links.pred_bridge_back]
  · rw [Links.succ_bridge_of_ne hkp, Links.pred_bridge_of_ne (h.succ_ne_back hk)]
    exact h.pred_succ (List.mem_of_mem_erase hk)

/-- The survivors' predecessors are the previous ones among them. -/
theorem Lost.prev?_bridge (h : Lost place ms L c spare) {k : Nat} (hk : k ∈ ms.erase c) :
    prev? place (ms.erase c) k = some ((L.bridge c).pred k) := by
  have hkm := List.mem_of_mem_erase hk
  rw [prev?_eq_some_iff h.distinct_survivors hk]
  by_cases hks : k = L.succ c
  · subst hks
    rw [Links.pred_bridge_back]
    refine ⟨h.front_mem, h.front_ne_back, ?_⟩
    -- who is between the two neighbours is on either side of `c`, or is `c`
    intro j hj hb
    obtain ⟨hjc, hjm⟩ := h.mem_erase.1 hj
    have hback := h.not_between_pred hkm hjm
    have hfront := h.not_between_pred h.mem hjm
    have hne := place_ne h.distinct h.mem hjm hjc
    rw [h.pred_succ h.mem] at hback
    rw [← RingId.val_ne_iff] at hne
    rw [RingId.between_iff_val] at hback hfront hb
    omega
  · rw [Links.pred_bridge_of_ne hks]
    refine ⟨h.pred_survivor hk hks, (h.pred hkm).2, ?_⟩
    intro j hj
    exact h.not_between_pred hkm (List.mem_of_mem_erase hj)

/-- The survivors' links are exact once the two neighbours of `c` know each other. -/
theorem Lost.exact_bridge (h : Lost place ms L c spare) : Exact place (ms.erase c) (L.bridge c) := by
  intro k hk
  have hs := h.succ_bridge hk
  refine ⟨?_, h.prev?_bridge hk⟩
  rw [← prev?_eq_some_iff_next? h.distinct_survivors hk hs, h.prev?_bridge hs, h.mutual_bridge k hk]

end Bridge

/-! ## The gap -/

/-- The successor that the member before the gap knows, and the predecessor that the one after it knows. -/
structure Gap where
  front : Option Nat
  back : Option Nat
  deriving DecidableEq

namespace Gap

section Steps

variable (L : Links) (c : Nat) (spare : Option Nat)

/-- Both neighbours of `c` still know it. -/
def fresh : Gap := ⟨some c, some c⟩

/-- The two neighbours of `c` know each other. -/
def closed : Gap := ⟨some (L.succ c), some (L.pred c)⟩

/-- The member after the gap finds that `c` does not answer. -/
def check (g : Gap) (k : Nat) : Gap :=
  if k = L.succ c ∧ g.back = some c then { g with back := none } else g

/-- From `m` the member before the gap goes on to the one that `m` knows as predecessor. -/
def stride (m : Nat) : Nat := if m = L.succ c then m else L.pred m

/-- The member before the gap has `m` as successor, and has told it. It tells the one after the gap only
    when that one has dropped `c`. -/
def arrive (g : Gap) (m : Nat) : Gap where
  front := some m
  back := if m = L.succ c then some (L.pred c) else g.back

/-- The member before the gap drops `c` for `spare`, and goes on from any other successor. The member
    before it attaches it again where it has none. -/
def stabilize (g : Gap) (k : Nat) : Gap :=
  if k = L.pred c then
    match g.front with
    | none => g
    | some m => if m = c then { g with front := spare } else g.arrive L c (stride L c m)
  else if L.succ k = L.pred c ∧ g.front = none then { g with front := some k }
  else g

/-- The turn of `k`. -/
def tend (g : Gap) (k : Nat) : Gap := (g.check L c k).stabilize L c spare k

end Steps

/-- The member before the gap knows no other than another member, and the one after it none but the two on
    the other side. -/
structure Fits (ms : List Nat) (L : Links) (c : Nat) (g : Gap) : Prop where
  front : ∀ m, g.front = some m → m ∈ ms ∧ m ≠ L.pred c
  back : ∀ m, g.back = some m → m = c ∨ m = L.pred c

/-- Neither of the two knows `c` any more. -/
structure Noticed (c : Nat) (g : Gap) : Prop where
  front : g.front ≠ some c
  back : g.back ≠ some c

variable {place : Nat → RingId} {ms : List Nat} {L : Links} {c k m : Nat} {spare : Option Nat} {g : Gap}

/-! ## What a turn keeps -/

theorem check_eq_self (hb : g.back ≠ some c) : g.check L c k = g := if_neg fun h => hb h.2

@[simp] theorem front_check : (g.check L c k).front = g.front := by
  unfold check
  split <;> rfl

/-- A stride leads from a survivor to a survivor. -/
theorem stride_survivor (h : Lost place ms L c spare) (hm : m ∈ ms.erase c) (hp : m ≠ L.pred c) :
    stride L c m ∈ ms.erase c ∧ stride L c m ≠ L.pred c := by
  unfold stride
  split
  · exact ⟨hm, hp⟩
  · next hs => exact ⟨h.pred_survivor hm hs, h.pred_ne_front hm⟩

theorem fits_fresh (h : Lost place ms L c spare) : Fits ms L c (fresh c) := by
  constructor
  · rintro _ ⟨⟩
    exact ⟨h.mem, (h.pred h.mem).2.symm⟩
  · rintro _ ⟨⟩
    exact .inl rfl

theorem Fits.check (hf : Fits ms L c g) (k : Nat) : Fits ms L c (g.check L c k) := by
  unfold Gap.check
  split
  · exact ⟨hf.front, fun _ hm => nomatch hm⟩
  · exact hf

theorem Fits.setFront (hf : Fits ms L c g) (hm : m ∈ ms) (hp : m ≠ L.pred c) :
    Fits ms L c { g with front := some m } := by
  refine ⟨?_, hf.back⟩
  rintro _ ⟨⟩
  exact ⟨hm, hp⟩

theorem Fits.arrive (hf : Fits ms L c g) (hm : m ∈ ms) (hp : m ≠ L.pred c) :
    Fits ms L c (g.arrive L c m) := by
  refine ⟨(hf.setFront hm hp).front, ?_⟩
  intro l hl
  unfold Gap.arrive at hl
  split at hl
  · exact .inr (Option.some_inj.1 hl).symm
  · exact hf.back l hl

/-- Any other successor than `c` is a survivor. -/
theorem Fits.survivor (hf : Fits ms L c g) (h : Lost place ms L c spare) (hg : g.front = some m)
    (hmc : m ≠ c) : m ∈ ms.erase c ∧ m ≠ L.pred c :=
  ⟨h.mem_erase.2 ⟨hmc, (hf.front m hg).1⟩, (hf.front m hg).2⟩

theorem Fits.stabilize (hf : Fits ms L c g) (h : Lost place ms L c spare) (hk : k ∈ ms.erase c) :
    Fits ms L c (g.stabilize L c spare k) := by
  unfold Gap.stabilize
  split
  · cases hfront : g.front with
    | none => exact hf
    | some m =>
      simp only
      split
      · exact ⟨fun m hm => ⟨List.mem_of_mem_erase (h.spare m hm).1, (h.spare m hm).2⟩, hf.back⟩
      · next hmc =>
        obtain ⟨hm, hp⟩ := hf.survivor h hfront hmc
        obtain ⟨hm', hp'⟩ := stride_survivor h hm hp
        exact hf.arrive (List.mem_of_mem_erase hm') hp'
  · next hkp =>
    split
    · exact hf.setFront (List.mem_of_mem_erase hk) hkp
    · exact hf

theorem Fits.tend (hf : Fits ms L c g) (h : Lost place ms L c spare) (hk : k ∈ ms.erase c) :
    Fits ms L c (g.tend L c spare k) :=
  (hf.check k).stabilize h hk

/-! ## Noticing -/

/-- The member before the gap does not know `c` after its own turn, and never again. -/
theorem front_tend_ne (h : Lost place ms L c spare) (hf : Fits ms L c g) (hk : k ∈ ms.erase c)
    (hkg : k = L.pred c ∨ g.front ≠ some c) : (g.tend L c spare k).front ≠ some c := by
  unfold tend stabilize
  rw [front_check]
  split
  · cases hfront : g.front with
    | none => simp [hfront]
    | some m =>
      simp only
      split
      · intro he
        exact (h.mem_erase.1 (h.spare c he).1).1 rfl
      · next hmc =>
        obtain ⟨hm, hp⟩ := hf.survivor h hfront hmc
        intro he
        rw [arrive, Option.some_inj] at he
        exact (h.mem_erase.1 (stride_survivor h hm hp).1).1 he
  · next hkp =>
    split
    · intro he
      rw [Option.some_inj] at he
      exact (h.mem_erase.1 hk).1 he
    · rw [front_check]
      exact hkg.resolve_left hkp

/-- Only its own turns take a successor from the member before the gap. -/
theorem front_tend_of_ne (hk : k ≠ L.pred c) (hg : g.front = some m) :
    (g.tend L c spare k).front = some m := by
  have hsome : ¬(L.succ k = L.pred c ∧ (g.check L c k).front = none) := by
    rintro ⟨-, hnone⟩
    rw [front_check, hg] at hnone
    cases hnone
  rw [tend, stabilize, if_neg hk, if_neg hsome, front_check, hg]

/-- The member after the gap does not know `c` after its own turn, and never again. -/
theorem back_tend_ne (h : Lost place ms L c spare) (hkg : k = L.succ c ∨ g.back ≠ some c) :
    (g.tend L c spare k).back ≠ some c := by
  have hcheck : (g.check L c k).back ≠ some c := by
    unfold check
    split
    · exact (Option.some_ne_none c).symm
    · next hn =>
      intro hb
      rcases hkg with hks | hg
      · exact hn ⟨hks, hb⟩
      · exact hg hb
  have harrive : ∀ m, ((g.check L c k).arrive L c m).back ≠ some c := by
    intro m
    unfold arrive
    split
    · intro he
      exact (h.pred h.mem).2 (Option.some_inj.1 he)
    · exact hcheck
  unfold tend stabilize
  split
  · split
    · exact hcheck
    · split
      · exact hcheck
      · exact harrive _
  · split
    · exact hcheck
    · exact hcheck

theorem Noticed.tend (hn : Noticed c g) (h : Lost place ms L c spare) (hf : Fits ms L c g)
    (hk : k ∈ ms.erase c) : Noticed c (g.tend L c spare k) :=
  ⟨front_tend_ne h hf hk (.inr hn.front), back_tend_ne h (.inr hn.back)⟩

theorem Fits.foldl_tend (hf : Fits ms L c g) (h : Lost place ms L c spare) {order : List Nat}
    (ho : order ⊆ ms.erase c) : Fits ms L c (order.foldl (Gap.tend L c spare) g) := by
  induction order generalizing g with
  | nil => exact hf
  | cons k order ih =>
    obtain ⟨hk, ho⟩ := List.cons_subset.1 ho
    exact ih (hf.tend h hk) ho

/-- Neither knows `c` after turns among which are those that it takes. -/
theorem noticed_foldl_tend (h : Lost place ms L c spare) (hf : Fits ms L c g) {order : List Nat}
    (ho : order ⊆ ms.erase c) (hfront : L.pred c ∈ order ∨ g.front ≠ some c)
    (hback : L.succ c ∈ order ∨ g.back ≠ some c) :
    Noticed c (order.foldl (Gap.tend L c spare) g) := by
  induction order generalizing g with
  | nil => exact ⟨hfront.resolve_left List.not_mem_nil, hback.resolve_left List.not_mem_nil⟩
  | cons k order ih =>
    obtain ⟨hk, ho⟩ := List.cons_subset.1 ho
    refine ih (hf.tend h hk) ho ?_ ?_
    · by_cases hkg : k = L.pred c ∨ g.front ≠ some c
      · exact .inr (front_tend_ne h hf hk hkg)
      · rw [not_or] at hkg
        exact .inl (List.mem_of_ne_of_mem (Ne.symm hkg.1) (hfront.resolve_right hkg.2))
    · by_cases hkg : k = L.succ c ∨ g.back ≠ some c
      · exact .inr (back_tend_ne h hkg)
      · rw [not_or] at hkg
        exact .inl (List.mem_of_ne_of_mem (Ne.symm hkg.1) (hback.resolve_right hkg.2))

/-! ## Closing the gap -/

/-- Whose turn moves the gap on: the member before it, or the one that attaches that member again. -/
def mover (L : Links) (c : Nat) (g : Gap) : Nat :=
  if g.front = none then L.pred (L.pred c) else L.pred c

/-- How far the gap is from being closed: the survivors that the member before it has to walk past, and
    the last step. -/
def rank (place : Nat → RingId) (ms : List Nat) (L : Links) (c : Nat) (g : Gap) : Nat :=
  if g = closed L c then 0
  else match g.front with
    | none => ms.length - 1
    | some m => within place ((ms.erase c).erase (L.pred c)) (place (L.pred c)) (place m) + 1

theorem mover_of_none (hf : g.front = none) : g.mover L c = L.pred (L.pred c) := if_pos hf

theorem mover_of_some (hf : g.front = some m) : g.mover L c = L.pred c := by
  rw [mover, hf]
  exact if_neg (Option.some_ne_none m)

theorem mover_survivor (h : Lost place ms L c spare) (g : Gap) : g.mover L c ∈ ms.erase c := by
  unfold mover
  split
  · exact h.pred_survivor h.front_mem h.front_ne_back
  · exact h.front_mem

theorem rank_le (hm : g.front = some m) : rank place ms L c g
    ≤ within place ((ms.erase c).erase (L.pred c)) (place (L.pred c)) (place m) + 1 := by
  unfold rank
  split
  · exact Nat.zero_le _
  · rw [hm]

/-- The member before the gap and its successor are not among those that it has to walk past. -/
theorem rank_lt_of_front (h : Lost place ms L c spare) (hf : g.front = some m) (hm : m ∈ ms.erase c)
    (hp : m ≠ L.pred c) : rank place ms L c g < ms.length - 1 := by
  have hmem : m ∈ (ms.erase c).erase (L.pred c) := (List.mem_erase_of_ne hp).2 hm
  have hout := RingId.not_between_right (place (L.pred c)) (place m)
  have hlt := within_lt_length hmem hout
  have hcrowd := h.crowd
  rw [List.length_erase_of_mem h.front_mem, List.length_erase_of_mem h.mem] at hlt
  exact Nat.lt_of_le_of_lt (rank_le hf) (by omega)

theorem rank_le_of_noticed (h : Lost place ms L c spare) (hf : Fits ms L c g) (hn : Noticed c g) :
    rank place ms L c g ≤ ms.length - 1 := by
  cases hfront : g.front with
  | none =>
    unfold rank
    split
    · exact Nat.zero_le _
    · rw [hfront]
  | some m =>
    obtain ⟨hm, hp⟩ := hf.survivor h hfront fun he => hn.front (he ▸ hfront)
    exact Nat.le_of_lt (rank_lt_of_front h hfront hm hp)

/-- Only the closed gap has nothing left. -/
theorem eq_closed_of_rank (h : Lost place ms L c spare) (h0 : rank place ms L c g = 0) :
    g = closed L c := by
  by_contra hg
  have hcrowd := h.crowd
  rw [rank, if_neg hg] at h0
  split at h0
  · omega
  · exact Nat.succ_ne_zero _ h0

/-- The others' turns do not move the gap. -/
theorem tend_eq_self (h : Lost place ms L c spare) (hn : Noticed c g) (hk : k ∈ ms.erase c)
    (hne : k ≠ g.mover L c) : g.tend L c spare k = g := by
  rw [tend, check_eq_self hn.back, stabilize]
  split
  · next hkp =>
    split
    · rfl
    · next m hm =>
      rw [mover_of_some hm] at hne
      exact absurd hkp hne
  · rw [if_neg]
    rintro ⟨hs, hnone⟩
    rw [mover_of_none hnone, ← hs, h.pred_succ (List.mem_of_mem_erase hk)] at hne
    exact hne rfl

/-- A closed gap stays closed. -/
theorem tend_closed (h : Lost place ms L c spare) (k : Nat) :
    (closed L c).tend L c spare k = closed L c := by
  have hback : (closed L c).back ≠ some c := fun he => (h.pred h.mem).2 (Option.some_inj.1 he)
  rw [tend, check_eq_self hback, stabilize]
  split
  · simp only [closed, if_neg (h.succ h.mem).2, arrive, stride, if_true]
  · rw [if_neg]
    rintro ⟨-, hnone⟩
    cases hnone

/-- The turn of the mover brings the gap closer to being closed. -/
theorem rank_tend_lt (h : Lost place ms L c spare) (hf : Fits ms L c g) (hn : Noticed c g)
    (hg : g ≠ closed L c) :
    rank place ms L c (g.tend L c spare (g.mover L c)) < rank place ms L c g := by
  rw [tend, check_eq_self hn.back, stabilize]
  cases hfront : g.front with
  | none =>
    -- attached again
    have hpp := h.pred (h.pred h.mem).1
    have hs := h.succ_pred (h.pred h.mem).1
    rw [mover_of_none hfront, if_neg hpp.2, if_pos ⟨hs, rfl⟩]
    have hlt := rank_lt_of_front h (g := { g with front := some (L.pred (L.pred c)) }) rfl
      (h.pred_survivor h.front_mem h.front_ne_back) hpp.2
    rw [rank.eq_def place ms L c g, if_neg hg, hfront]
    exact hlt
  | some m =>
    have hmc : m ≠ c := fun he => hn.front (he ▸ hfront)
    obtain ⟨hms, hp⟩ := hf.survivor h hfront hmc
    rw [mover_of_some hfront, if_pos rfl]
    simp only
    rw [if_neg hmc, rank.eq_def place ms L c g, if_neg hg, hfront]
    by_cases hmb : m = L.succ c
    · -- the last step
      have hstride : stride L c m = L.succ c := (if_pos hmb).trans hmb
      have hclosed : g.arrive L c (L.succ c) = closed L c := by
        rw [arrive, if_pos rfl, closed]
      rw [hstride, hclosed, rank, if_pos rfl]
      exact Nat.succ_pos _
    · have hstride : stride L c m = L.pred m := if_neg hmb
      have hs := stride_survivor h hms hp
      rw [hstride] at hs ⊢
      have hcut := within_left_lt ((List.mem_erase_of_ne hs.2).2 hs.1) (h.between_pred hms hp)
      exact Nat.lt_of_le_of_lt (rank_le rfl) (Nat.succ_lt_succ hcut)

theorem rank_tend_le (h : Lost place ms L c spare) (hf : Fits ms L c g) (hn : Noticed c g)
    (hk : k ∈ ms.erase c) : rank place ms L c (g.tend L c spare k) ≤ rank place ms L c g := by
  by_cases hg : g = closed L c
  · rw [hg, tend_closed h]
  · by_cases hkm : k = g.mover L c
    · exact hkm ▸ Nat.le_of_lt (rank_tend_lt h hf hn hg)
    · rw [tend_eq_self h hn hk hkm]

theorem rank_foldl_tend_le (h : Lost place ms L c spare) (hf : Fits ms L c g) (hn : Noticed c g)
    {order : List Nat} (ho : order ⊆ ms.erase c) :
    rank place ms L c (order.foldl (Gap.tend L c spare) g) ≤ rank place ms L c g := by
  induction order generalizing g with
  | nil => exact Nat.le_refl _
  | cons k order ih =>
    obtain ⟨hk, ho⟩ := List.cons_subset.1 ho
    have hle := ih (hf.tend h hk) (hn.tend h hf hk) ho
    exact Nat.le_trans hle (rank_tend_le h hf hn hk)

/-- In a round everybody has a turn, the mover too. -/
theorem rank_round_le (h : Lost place ms L c spare) (hf : Fits ms L c g) (hn : Noticed c g)
    {order : List Nat} (ho : order.Perm (ms.erase c)) :
    rank place ms L c (order.foldl (Gap.tend L c spare) g) ≤ rank place ms L c g - 1 := by
  by_cases hg : g = closed L c
  · have hle := rank_foldl_tend_le h hf hn ho.subset
    rw [rank.eq_def place ms L c g, if_pos hg] at hle ⊢
    exact hle
  obtain ⟨front, rest, rfl⟩ := List.append_of_mem (ho.mem_iff.2 (mover_survivor h g))
  have hnodup := ho.nodup_iff.2 h.distinct_survivors.nodup
  have hsub := List.append_subset.1 ho.subset
  obtain ⟨hm, hrest⟩ := List.cons_subset.1 hsub.2
  -- nothing moves before its turn
  have hfront : front.foldl (Gap.tend L c spare) g = g := by
    refine List.foldlRecOn front _ (motive := (· = g)) rfl ?_
    rintro _ rfl k hk
    apply tend_eq_self h hn (hsub.1 hk)
    rintro rfl
    exact (List.nodup_append.1 hnodup).2.2 _ hk _ (List.mem_cons_self ..) rfl
  rw [List.foldl_append, hfront, List.foldl_cons]
  have hle := rank_foldl_tend_le h (hf.tend h hm) (hn.tend h hf hm) hrest
  exact Nat.le_trans hle (Nat.le_sub_one_of_lt (rank_tend_lt h hf hn hg))

/-- Rounds of turns, each in an order of its own. -/
def rounds (L : Links) (c : Nat) (spare : Option Nat) (orders : List (List Nat)) (g : Gap) : Gap :=
  orders.foldl (fun g order => order.foldl (Gap.tend L c spare) g) g

theorem rounds_eq_closed_of_noticed (h : Lost place ms L c spare) (hf : Fits ms L c g)
    (hn : Noticed c g) {orders : List (List Nat)} (ho : ∀ order ∈ orders, order.Perm (ms.erase c))
    (hlen : rank place ms L c g ≤ orders.length) : rounds L c spare orders g = closed L c := by
  induction orders generalizing g with
  | nil => exact eq_closed_of_rank h (Nat.le_zero.1 hlen)
  | cons order orders ih =>
    obtain ⟨hp, ho⟩ := List.forall_mem_cons.1 ho
    refine ih (hf.foldl_tend h hp.subset) (noticed_foldl_tend h hf hp.subset (.inr hn.front)
      (.inr hn.back)) ho ?_
    rw [List.length_cons] at hlen
    exact Nat.le_trans (rank_round_le h hf hn hp) (Nat.sub_le_of_le_add hlen)

/-- As many rounds as the ring had members close the gap. -/
theorem rounds_eq_closed (h : Lost place ms L c spare) {orders : List (List Nat)}
    (ho : ∀ order ∈ orders, order.Perm (ms.erase c)) (hlen : ms.length ≤ orders.length) :
    rounds L c spare orders (fresh c) = closed L c := by
  have hcrowd := h.crowd
  cases orders with
  | nil => exact absurd hlen (by rw [List.length_nil]; omega)
  | cons order orders =>
    obtain ⟨hp, ho⟩ := List.forall_mem_cons.1 ho
    have hf := fits_fresh h
    have hn := noticed_foldl_tend h hf hp.subset (.inl (hp.mem_iff.2 h.front_mem))
      (.inl (hp.mem_iff.2 h.back_mem))
    have hf' := hf.foldl_tend h hp.subset
    rw [List.length_cons] at hlen
    have hle := rank_le_of_noticed h hf' hn
    exact rounds_eq_closed_of_noticed h hf' hn ho (by omega)

end Gap

end RingOverlay.Ring
