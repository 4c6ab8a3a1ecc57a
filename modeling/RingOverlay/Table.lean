import RingOverlay.Node

/-!
# `RingOverlay.Table` — what a member knows of the ring

A member keeps 256 slots, of which slot `i` should hold a peer some 2^(i-1) points ahead, and its
predecessor. Unknown entries are empty. Slot 0 holds the successor.

## Contents
- **State.** `Table`, `Table.empty`, `finger`.
- **Readings.** `successor?`, `peerSuccessor?`, `closestPreceding`, `Route`.
- **Changes.** `setFinger`, `clearFinger`, `setPredecessor`, `clearPredecessor`, `remove`.
- **Laws of the view.** What each change does to `finger` and to the predecessor.
- **Runs.** `runs`, the known slots in runs of equal nodes.
-/

namespace RingOverlay

/-- The routing slots and the predecessor of a member. -/
structure Table where
  fingers : List (Option Node)
  length_fingers : fingers.length = 256
  predecessor : Option Node
  deriving DecidableEq

namespace Table

/-- The table of a member that knows nobody. -/
def empty : Table := ⟨List.replicate 256 none, List.length_replicate, none⟩

instance : Inhabited Table := ⟨empty⟩

/-- The entry of slot `i`; slots past the last one are unknown. -/
def finger (t : Table) (i : Nat) : Option Node := (t.fingers[i]?).join

/-- The slot of the successor. -/
def successorSlot : Fin 256 := ⟨0, by decide⟩

/-- The entry of slot 0. -/
def successor? (t : Table) : Option Node := t.finger 0

/-- The entry of slot 0, if it is another node than `self`. -/
def peerSuccessor? (t : Table) (self : Node) : Option Node := t.successor?.filter (· ≠ self)

/-- The entry of the highest slot that lies strictly between `self` and `id`, else `self`. -/
def closestPreceding (t : Table) (self : Node) (id : RingId) : Node :=
  ((t.fingers.reverse.filterMap fun slot => slot).find? fun n => n.id.between self.id id).getD self

/-! ## Routing -/

/-- Where the owner of a point is to be found. -/
inductive Route where
  /-- The owner is known. -/
  | owner (n : Node)
  /-- `next` knows more. -/
  | forward (next : Node)
  deriving DecidableEq, Repr

/-- Decides a route from the successor and the closest node in front of `id`, each `self` where none
    is known. The successor owns the arc up to itself. -/
def Route.choose (self successor closest : Node) (id : RingId) : Route :=
  if id.betweenIncl self.id successor.id then .owner successor
  else .forward (if closest = self then successor else closest)

/-- The route that a table gives to the owner of `id`. -/
def route (t : Table) (self : Node) (id : RingId) : Route :=
  .choose self (t.successor?.getD self) (t.closestPreceding self id) id

/-! ## Changes -/

/-- Puts `n` into slot `i`. Every lower slot with the entry that `n` replaces takes `n` too, so slots
    that were unknown or shared one node go on sharing one. -/
def setFinger (t : Table) (i : Fin 256) (n : Node) : Table :=
  if t.finger i = some n then t
  else
    { t with
      fingers := t.fingers.mapIdx fun j slot =>
        if j = i.val ∨ (j < i.val ∧ slot = t.finger i) then some n else slot
      length_fingers := by simp [t.length_fingers] }

/-- Makes slot `i` unknown. -/
def clearFinger (t : Table) (i : Fin 256) : Table :=
  { t with
    fingers := t.fingers.set i.val none
    length_fingers := by simp [t.length_fingers] }

/-- Makes `n` the predecessor. -/
def setPredecessor (t : Table) (n : Node) : Table := { t with predecessor := some n }

/-- Makes the predecessor unknown. -/
def clearPredecessor (t : Table) : Table := { t with predecessor := none }

/-- Removes the entries of point `id` from slots. Each takes the nearest entry above it that is known
    and of another point. The second part is the lowest such entry, for a slot below. -/
def withdraw (id : RingId) : List (Option Node) → List (Option Node) × Option Node
  | [] => ([], none)
  | slot :: above =>
    let (kept, spare) := withdraw id above
    match slot with
    | none => (none :: kept, spare)
    | some n => if n.id = id then (spare :: kept, spare) else (some n :: kept, some n)

/-- No slot is lost. -/
theorem length_withdraw (id : RingId) (slots : List (Option Node)) :
    (withdraw id slots).1.length = slots.length := by
  induction slots with
  | nil => rfl
  | cons slot above ih =>
    cases slot with
    | none => simp [withdraw, ih]
    | some n => by_cases h : n.id = id <;> simp [withdraw, h, ih]

/-- Removes every entry of point `id`. -/
def remove (t : Table) (id : RingId) : Table where
  fingers := (withdraw id t.fingers).1
  length_fingers := by rw [length_withdraw, t.length_fingers]
  predecessor := t.predecessor.filter (·.id ≠ id)

/-! ## Laws of the view

What each change does to `finger` and to the predecessor. -/

/-- An empty table knows nobody. -/
@[simp] theorem finger_empty (i : Nat) : empty.finger i = none := by
  simp only [finger, empty, List.getElem?_replicate]
  split <;> rfl

/-- A slot past the last one is unknown. -/
theorem finger_of_le (t : Table) {i : Nat} (h : 256 ≤ i) : t.finger i = none := by
  rw [finger, List.getElem?_eq_none (by rw [t.length_fingers]; exact h)]
  rfl

/-- Slot `i` holds the new node, and so does every lower slot that shared the entry it replaces. -/
theorem finger_setFinger (t : Table) (i : Fin 256) (n : Node) (j : Nat) :
    (t.setFinger i n).finger j
      = if j = i.val ∨ (j < i.val ∧ t.finger j = t.finger i) then some n else t.finger j := by
  unfold setFinger
  split
  · next h =>
    split
    · next hj => rcases hj with rfl | ⟨-, hj⟩ <;> simp_all
    · rfl
  · rcases Nat.lt_or_ge j 256 with hj | hj
    · have hl : j < t.fingers.length := by rw [t.length_fingers]; exact hj
      have he : t.finger j = t.fingers[j] := by
        rw [finger, List.getElem?_eq_getElem hl, Option.join_some]
      rw [finger, List.getElem?_mapIdx, List.getElem?_eq_getElem hl, Option.map_some,
        Option.join_some, he]
    · have hi : ¬(j = i.val ∨ (j < i.val ∧ t.finger j = t.finger i)) := by
        rintro (h | h)
        · exact absurd i.isLt (h ▸ Nat.not_lt.2 hj)
        · exact absurd (Nat.lt_trans h.1 i.isLt) (Nat.not_lt.2 hj)
      rw [if_neg hi, finger_of_le t hj]
      exact finger_of_le _ hj

/-- The slot that is set holds the new node. -/
@[simp] theorem finger_setFinger_self (t : Table) (i : Fin 256) (n : Node) :
    (t.setFinger i n).finger i = some n := by
  rw [finger_setFinger, if_pos (.inl rfl)]

/-- Slot 0 is above no other slot, so setting it changes no other. -/
theorem finger_setSuccessor (t : Table) (n : Node) (i : Nat) :
    (t.setFinger successorSlot n).finger i = if i = 0 then some n else t.finger i := by
  rw [finger_setFinger]
  by_cases hi : i = 0
  · rw [if_pos (.inl hi), if_pos hi]
  · rw [if_neg hi, if_neg]
    rintro (h | ⟨h, -⟩)
    · exact hi h
    · exact Nat.not_lt_zero i h

/-- Setting a slot keeps the predecessor. -/
@[simp] theorem predecessor_setFinger (t : Table) (i : Fin 256) (n : Node) :
    (t.setFinger i n).predecessor = t.predecessor := by
  unfold setFinger
  split <;> rfl

/-- Clearing a slot changes no other. -/
theorem finger_clearFinger (t : Table) (i : Fin 256) (j : Nat) :
    (t.clearFinger i).finger j = if j = i.val then none else t.finger j := by
  simp only [finger, clearFinger, List.getElem?_set, t.length_fingers, i.isLt]
  by_cases h : i.val = j
  · simp [h]
  · rw [if_neg h, if_neg (Ne.symm h)]

/-- Clearing a slot keeps the predecessor. -/
@[simp] theorem predecessor_clearFinger (t : Table) (i : Fin 256) :
    (t.clearFinger i).predecessor = t.predecessor := rfl

/-- What is left when the entries of a point are removed was there before and is of another point. -/
theorem withdraw_subset (id : RingId) (slots : List (Option Node)) :
    (∀ n, (withdraw id slots).2 = some n → some n ∈ slots ∧ n.id ≠ id) ∧
      ∀ n, some n ∈ (withdraw id slots).1 → some n ∈ slots ∧ n.id ≠ id := by
  induction slots with
  | nil => exact ⟨fun _ h => (nomatch h), fun _ h => (nomatch h)⟩
  | cons slot above ih =>
    obtain ⟨hspare, hkept⟩ := ih
    have hspare' : ∀ n, (withdraw id above).2 = some n → some n ∈ slot :: above ∧ n.id ≠ id :=
      fun n h => ⟨List.mem_cons_of_mem _ (hspare n h).1, (hspare n h).2⟩
    have hkept' : ∀ n, some n ∈ (withdraw id above).1 → some n ∈ slot :: above ∧ n.id ≠ id :=
      fun n h => ⟨List.mem_cons_of_mem _ (hkept n h).1, (hkept n h).2⟩
    cases slot with
    | none =>
      refine ⟨hspare', ?_⟩
      rintro n (_ | ⟨_, h⟩)
      exact hkept' n h
    | some m =>
      by_cases hm : m.id = id
      · simp only [withdraw, hm, if_true]
        refine ⟨hspare', ?_⟩
        intro n h
        rcases List.mem_cons.1 h with h | h
        · exact hspare' n h.symm
        · exact hkept' n h
      · simp only [withdraw, hm, if_false]
        constructor
        · rintro _ ⟨⟩
          exact ⟨List.mem_cons_self .., hm⟩
        · intro n h
          rcases List.mem_cons.1 h with h | h
          · rw [Option.some_inj] at h
            exact ⟨h ▸ List.mem_cons_self .., h ▸ hm⟩
          · exact hkept' n h

/-- A known slot is an entry of the table. -/
theorem finger_eq_some_iff_mem (t : Table) (n : Node) :
    (∃ i, t.finger i = some n) ↔ some n ∈ t.fingers := by
  simp only [finger, List.mem_iff_getElem?, Option.join_eq_some_iff]

/-- A removal keeps only entries of other points. -/
theorem finger_remove (t : Table) {id : RingId} {i : Nat} {n : Node}
    (h : (t.remove id).finger i = some n) : (∃ j, t.finger j = some n) ∧ n.id ≠ id := by
  rw [finger_eq_some_iff_mem]
  exact (withdraw_subset id t.fingers).2 n ((finger_eq_some_iff_mem _ n).1 ⟨i, h⟩)

/-- A new predecessor changes no slot. -/
@[simp] theorem finger_setPredecessor (t : Table) (n : Node) (i : Nat) :
    (t.setPredecessor n).finger i = t.finger i := rfl

/-- Clearing the predecessor changes no slot. -/
@[simp] theorem finger_clearPredecessor (t : Table) (i : Nat) :
    t.clearPredecessor.finger i = t.finger i := rfl

/-! ## Runs -/

/-- Splits slots, the first of which has number `i`, into runs of equal known nodes: the first and the
    last number and the node. -/
def runsFrom : Nat → List (Option Node) → List (Nat × Nat × Node)
  | _, [] => []
  | i, none :: rest => runsFrom (i + 1) rest
  | i, some n :: rest =>
    match runsFrom (i + 1) rest with
    | (first, last, m) :: more =>
      if first = i + 1 ∧ m = n then (i, last, n) :: more else (i, i, n) :: (first, last, m) :: more
    | [] => [(i, i, n)]

/-- The known slots in runs of equal nodes. -/
def runs (t : Table) : List (Nat × Nat × Node) := runsFrom 0 t.fingers

end Table

end RingOverlay
