import RingOverlay.Table

/-!
# `Table.Removal` — what is left when points are removed

When a point is removed, each slot that names it takes the nearest entry above that is known and of another
point. A later removal may hit the entry that a slot has just taken, and slots that were unknown leave gaps
in between. In the end none of this shows: a slot that named one of the removed points holds what its nearest
kept neighbour above held at the start, and all other slots are as they were. So the order of the removals
does not matter, nor does their repetition.

The reason is that a known slot always shows the first kept entry from itself upwards. That is said once for
any set of points (`backfill`), and two removals compose because the first kept entry of slots that were
filled is the first one that both sets of points keep.

## Contents
- **Slots.** `firstKept`; `backfill`, `withdraw_eq`, `backfill_backfill`.
- **Tables.** `removeEach`, `fingers_removeEach`, `finger_removeEach`, `finger_remove_eq`.
- **The nearest kept entry.** `NextKept`, `removeEach_nextKept`.
-/

namespace RingOverlay.Table

variable {ids ids' : List RingId} {slot : Option Node} {slots above : List (Option Node)} {n m : Node}

/-! ## Slots -/

/-- The first node in slots that is not of the points `ids`. -/
def firstKept (ids : List RingId) (slots : List (Option Node)) : Option Node :=
  slots.findSome? fun slot => slot.filter (·.id ∉ ids)

@[simp] theorem firstKept_nil : firstKept ids [] = none := rfl

@[simp] theorem firstKept_cons_none : firstKept ids (none :: above) = firstKept ids above := rfl

theorem firstKept_cons_of_mem (h : n.id ∈ ids) :
    firstKept ids (some n :: above) = firstKept ids above := by
  simp [firstKept, h]

theorem firstKept_cons_of_notMem (h : n.id ∉ ids) : firstKept ids (some n :: above) = some n := by
  simp [firstKept, h]

/-- No node is kept where all are of the points. -/
theorem firstKept_eq_none_iff :
    firstKept ids slots = none ↔ ∀ n, some n ∈ slots → n.id ∈ ids := by
  rw [firstKept, List.findSome?_eq_none_iff]
  constructor
  · intro h n hn
    simpa using h _ hn
  · intro h slot hslot
    rw [Option.filter_eq_none_iff]
    rintro n rfl
    simpa using h n hslot

/-- Where more points are removed, the first node that is kept stays the first if it is kept still. -/
theorem firstKept_append_of_some (h : firstKept ids slots = some m) (hm : m.id ∉ ids') :
    firstKept (ids ++ ids') slots = some m := by
  induction slots with
  | nil => simp at h
  | cons slot above ih =>
    cases slot with
    | none => exact ih h
    | some n =>
      by_cases hn : n.id ∈ ids
      · rw [firstKept_cons_of_mem hn] at h
        rw [firstKept_cons_of_mem (List.mem_append_left ids' hn)]
        exact ih h
      · rw [firstKept_cons_of_notMem hn, Option.some_inj] at h
        subst h
        apply firstKept_cons_of_notMem
        simp [hn, hm]

theorem firstKept_append_of_none (h : firstKept ids slots = none) :
    firstKept (ids ++ ids') slots = none := by
  rw [firstKept_eq_none_iff] at h ⊢
  intro n hn
  exact List.mem_append_left ids' (h n hn)

/-- Slots of which each known one shows the first kept node from itself upwards. -/
def backfill (ids : List RingId) : List (Option Node) → List (Option Node)
  | [] => []
  | slot :: above => (slot.bind fun _ => firstKept ids (slot :: above)) :: backfill ids above

/-- To remove one point is to fill its slots. -/
theorem withdraw_eq (id : RingId) (slots : List (Option Node)) :
    withdraw id slots = (backfill [id] slots, firstKept [id] slots) := by
  induction slots with
  | nil => rfl
  | cons slot above ih =>
    cases slot with
    | none => simp [withdraw, ih, backfill]
    | some n =>
      by_cases hn : n.id = id
      · simp [withdraw, ih, backfill, hn, firstKept_cons_of_mem]
      · simp [withdraw, ih, backfill, hn, firstKept_cons_of_notMem]

/-- A node that slots show after they were filled is one that they held before. -/
theorem firstKept_backfill (ids ids' : List RingId) (slots : List (Option Node)) :
    firstKept ids' (backfill ids slots) = firstKept (ids ++ ids') slots := by
  induction slots with
  | nil => rfl
  | cons slot above ih =>
    cases slot with
    | none => exact ih
    | some n =>
      show firstKept ids' (firstKept ids (some n :: above) :: backfill ids above) = _
      by_cases hn : n.id ∈ ids
      · rw [firstKept_cons_of_mem hn, firstKept_cons_of_mem (List.mem_append_left ids' hn)]
        -- the slot shows what a slot above shows, too, so it adds nothing
        cases hfirst : firstKept ids above with
        | none => exact ih
        | some m =>
          by_cases hm : m.id ∈ ids'
          · rw [firstKept_cons_of_mem hm]
            exact ih
          · rw [firstKept_cons_of_notMem hm, firstKept_append_of_some hfirst hm]
      · rw [firstKept_cons_of_notMem hn]
        by_cases hn' : n.id ∈ ids'
        · rw [firstKept_cons_of_mem hn', firstKept_cons_of_mem (List.mem_append_right ids hn')]
          exact ih
        · rw [firstKept_cons_of_notMem hn', firstKept_cons_of_notMem]
          simp [hn, hn']

/-- Filling twice is filling once, for the points of both. -/
theorem backfill_backfill (ids ids' : List RingId) (slots : List (Option Node)) :
    backfill ids' (backfill ids slots) = backfill (ids ++ ids') slots := by
  induction slots with
  | nil => rfl
  | cons slot above ih =>
    have hrest := firstKept_backfill ids ids' (slot :: above)
    cases slot with
    | none => simp [backfill, ih]
    | some n =>
      simp only [backfill, Option.bind_some, ih, List.cons.injEq, and_true] at hrest ⊢
      cases hfirst : firstKept ids (some n :: above) with
      | none => simp [firstKept_append_of_none hfirst]
      | some m =>
        rw [hfirst] at hrest
        exact hrest

theorem firstKept_congr (h : ∀ x, x ∈ ids' ↔ x ∈ ids) : firstKept ids' = firstKept ids := by
  funext slots
  simp [firstKept, h]

theorem backfill_congr (h : ∀ x, x ∈ ids' ↔ x ∈ ids) : backfill ids' = backfill ids := by
  funext slots
  induction slots with
  | nil => rfl
  | cons slot above ih => rw [backfill, backfill, ih, firstKept_congr h]

theorem backfill_nil (slots : List (Option Node)) : backfill [] slots = slots := by
  induction slots with
  | nil => rfl
  | cons slot above ih =>
    cases slot with
    | none => simp [backfill, ih]
    | some n => simp [backfill, ih, firstKept_cons_of_notMem]

theorem getElem?_backfill (ids : List RingId) (slots : List (Option Node)) (i : Nat) :
    (backfill ids slots)[i]?.join = (slots[i]?.join).bind fun _ => firstKept ids (slots.drop i) := by
  induction slots generalizing i with
  | nil => simp [backfill]
  | cons slot above ih =>
    cases i with
    | zero => simp [backfill]
    | succ i => simpa [backfill] using ih i

/-! ## Tables -/

/-- Removes points one after another. -/
def removeEach (t : Table) (ids : List RingId) : Table := ids.foldl remove t

variable {t : Table} {i : Nat}

theorem eq_of_fields {t t' : Table} (hf : t'.fingers = t.fingers)
    (hp : t'.predecessor = t.predecessor) : t' = t := by
  cases t
  cases t'
  simp_all

@[simp] theorem removeEach_cons (t : Table) (id : RingId) (ids : List RingId) :
    t.removeEach (id :: ids) = (t.remove id).removeEach ids := rfl

theorem fingers_removeEach (t : Table) (ids : List RingId) :
    (t.removeEach ids).fingers = backfill ids t.fingers := by
  induction ids generalizing t with
  | nil => exact (backfill_nil t.fingers).symm
  | cons id ids ih =>
    have hfirst : (t.remove id).fingers = backfill [id] t.fingers :=
      congrArg Prod.fst (withdraw_eq id t.fingers)
    rw [removeEach_cons, ih, hfirst, backfill_backfill, List.singleton_append]

theorem predecessor_removeEach (t : Table) (ids : List RingId) :
    (t.removeEach ids).predecessor = t.predecessor.filter (·.id ∉ ids) := by
  induction ids generalizing t with
  | nil =>
    show t.predecessor = t.predecessor.filter (·.id ∉ [])
    cases t.predecessor <;> rfl
  | cons id ids ih =>
    rw [removeEach_cons, ih, remove, Option.filter_filter]
    simp

/-- The same points in another order, or more often. -/
theorem removeEach_congr (t : Table) (h : ∀ x, x ∈ ids' ↔ x ∈ ids) :
    t.removeEach ids' = t.removeEach ids := by
  apply eq_of_fields
  · rw [fingers_removeEach, fingers_removeEach, backfill_congr h]
  · rw [predecessor_removeEach, predecessor_removeEach]
    simp [h]

/-- A known slot shows the first kept node from itself upwards. -/
theorem finger_removeEach (t : Table) (ids : List RingId) (i : Nat) :
    (t.removeEach ids).finger i = (t.finger i).bind fun _ => firstKept ids (t.fingers.drop i) := by
  rw [finger, fingers_removeEach]
  exact getElem?_backfill ids t.fingers i

/-- After one removal, too. -/
theorem finger_remove_eq (t : Table) (id : RingId) (i : Nat) :
    (t.remove id).finger i = (t.finger i).bind fun _ => firstKept [id] (t.fingers.drop i) :=
  finger_removeEach t [id] i

theorem drop_fingers (h : t.finger i = some n) : t.fingers.drop i = some n :: t.fingers.drop (i + 1) := by
  rw [finger, Option.join_eq_some_iff] at h
  obtain ⟨hi, h⟩ := List.getElem?_eq_some_iff.1 h
  rw [List.drop_eq_getElem_cons hi, h]

theorem finger_removeEach_of_mem (h : t.finger i = some n) (hn : n.id ∈ ids) :
    (t.removeEach ids).finger i = firstKept ids (t.fingers.drop (i + 1)) := by
  rw [finger_removeEach, h, Option.bind_some, drop_fingers h, firstKept_cons_of_mem hn]

/-- A slot of no removed point stays as it is, known or not. -/
theorem finger_removeEach_of_notMem (h : ∀ n, t.finger i = some n → n.id ∉ ids) :
    (t.removeEach ids).finger i = t.finger i := by
  rw [finger_removeEach]
  cases hi : t.finger i with
  | none => rfl
  | some n => rw [Option.bind_some, drop_fingers hi, firstKept_cons_of_notMem (h n hi)]

/-! ## The nearest kept entry -/

/-- What the nearest slot above slot `i` holds that is known and not of the points `ids`. -/
inductive NextKept (t : Table) (ids : List RingId) (i : Nat) : Option Node → Prop where
  | found (j : Nat) (m : Node) : i < j → t.finger j = some m → m.id ∉ ids →
      (∀ l, i < l → l < j → ∀ n, t.finger l = some n → n.id ∈ ids) → NextKept t ids i (some m)
  /-- No slot above is of that kind. -/
  | absent : (∀ l, i < l → ∀ n, t.finger l = some n → n.id ∈ ids) → NextKept t ids i none

theorem nextKept_firstKept (t : Table) (ids : List RingId) (i : Nat) :
    NextKept t ids i (firstKept ids (t.fingers.drop (i + 1))) := by
  have hfinger : ∀ l, i < l → t.finger l = (t.fingers.drop (i + 1))[l - (i + 1)]?.join := by
    intro l hl
    rw [List.getElem?_drop, Nat.add_sub_cancel' hl, finger]
  cases hfirst : firstKept ids (t.fingers.drop (i + 1)) with
  | none =>
    apply NextKept.absent
    intro l hl n hn
    rw [hfinger l hl, Option.join_eq_some_iff] at hn
    exact firstKept_eq_none_iff.1 hfirst n (List.mem_of_getElem? hn)
  | some m =>
    obtain ⟨below, slot, rest, hsplit, hslot, hbelow⟩ := List.findSome?_eq_some_iff.1 hfirst
    obtain ⟨rfl, hm⟩ := Option.filter_eq_some_iff.1 hslot
    have hj : i < i + 1 + below.length := by omega
    refine .found (i + 1 + below.length) m hj ?_ (of_decide_eq_true hm) ?_
    · rw [hfinger _ hj, hsplit]
      simp
    · intro l hl hlj n hn
      have hlt : l - (i + 1) < below.length := by omega
      rw [hfinger l hl, hsplit, List.getElem?_append_left hlt, Option.join_eq_some_iff] at hn
      have hgone : firstKept ids below = none := List.findSome?_eq_none_iff.2 hbelow
      exact firstKept_eq_none_iff.1 hgone n (List.mem_of_getElem? hn)

/-- Whatever slots hold, each slot of a removed point ends with the entry that its nearest kept neighbour
    above had at the start. All other slots are as they were, and the predecessor is lost only if it is of a
    removed point. The same points in another order or more often lead to the same table, and no slot names
    any of them. -/
theorem removeEach_nextKept (t : Table) (ids : List RingId) :
    (∀ i n, t.finger i = some n → n.id ∈ ids → NextKept t ids i ((t.removeEach ids).finger i)) ∧
    (∀ i, (∀ n, t.finger i = some n → n.id ∉ ids) → (t.removeEach ids).finger i = t.finger i) ∧
    (t.removeEach ids).predecessor = t.predecessor.filter (·.id ∉ ids) ∧
    (∀ ids', (∀ x, x ∈ ids' ↔ x ∈ ids) → t.removeEach ids' = t.removeEach ids) ∧
    ∀ i n, (t.removeEach ids).finger i = some n → n.id ∉ ids := by
  refine ⟨?_, ?_, predecessor_removeEach t ids, fun _ => removeEach_congr t, ?_⟩
  · intro i n hi hn
    rw [finger_removeEach_of_mem hi hn]
    exact nextKept_firstKept t ids i
  · intro i h
    exact finger_removeEach_of_notMem h
  · intro i n hn
    rw [finger_removeEach, Option.bind_eq_some_iff] at hn
    obtain ⟨_, -, hn⟩ := hn
    obtain ⟨_, _, _, -, hslot, -⟩ := List.findSome?_eq_some_iff.1 hn
    exact of_decide_eq_true (Option.filter_eq_some_iff.1 hslot).2

/-- Slots with gaps, and two nodes of one point. -/
def gappy : Table where
  fingers := [some ⟨.ofNat 5, "b"⟩, some ⟨.ofNat 5, "c"⟩, none, some ⟨.ofNat 9, "d"⟩, none,
    some ⟨.ofNat 12, "e"⟩] ++ List.replicate 250 none
  length_fingers := by rw [List.length_append, List.length_replicate]; rfl
  predecessor := some ⟨.ofNat 9, "d"⟩

/-- Slot 1 first takes the node of slot 3, and then that of slot 5. -/
theorem removeEach_nextKept_gappy :
    (gappy.finger 1 = some ⟨.ofNat 5, "c"⟩ ∧
      NextKept gappy [.ofNat 5, .ofNat 9] 1 ((gappy.removeEach [.ofNat 5, .ofNat 9]).finger 1)) ∧
    (gappy.removeEach [.ofNat 5, .ofNat 9]).finger 2 = gappy.finger 2 ∧
    gappy.removeEach [.ofNat 9, .ofNat 5, .ofNat 9] = gappy.removeEach [.ofNat 5, .ofNat 9] ∧
    (gappy.removeEach [.ofNat 5, .ofNat 9]).finger 0 = some ⟨.ofNat 12, "e"⟩ ∧
    RingId.ofNat 12 ∉ ([.ofNat 5, .ofNat 9] : List RingId) := by
  obtain ⟨hgone, hkept, -, hsame, hnone⟩ := removeEach_nextKept gappy [.ofNat 5, .ofNat 9]
  have h1 : gappy.finger 1 = some ⟨.ofNat 5, "c"⟩ := by decide +kernel
  have h2 : gappy.finger 2 = none := by decide +kernel
  have h0 : (gappy.removeEach [.ofNat 5, .ofNat 9]).finger 0 = some ⟨.ofNat 12, "e"⟩ := by
    decide +kernel
  refine ⟨⟨h1, hgone 1 _ h1 (by decide)⟩, hkept 2 ?_, hsame _ ?_, h0, hnone 0 _ h0⟩
  · intro n hn
    rw [h2] at hn
    cases hn
  · intro x
    rw [List.mem_cons]
    apply or_iff_right_of_imp
    rintro rfl
    exact List.mem_cons_of_mem _ (List.mem_cons_self ..)

end RingOverlay.Table
