import RingOverlay.Proofs.Network.Online
import RingOverlay.Proofs.Ring.Newcomer

/-!
# `Network.Neighbours` — what tables say of the ring

Two ways to say what the tables of members hold. `Routable` and `Consistent` compare each table with the
neighbours computed from the points of all members: that is a ring as it should be. `Linked` only says
that the neighbours known are those of some `Ring.Links`, be they right or not. The steps of the protocol
are followed with `Linked`; where the links turn out to be exact, the ring is consistent.

## Contents
- **Specification.** `Routable`, `Consistent`.
- **One table.** `Shows`, kept when a neighbour is set.
- **All tables.** `Linked`, kept when one table changes.
- **Exact links.** `Linked.consistent`, `consistent_singleton`.
- **An instance.** `trio`.
-/

namespace RingOverlay.Network

/-! ## Specification -/

/-- Every successor is the next member clockwise, and every other slot is unknown or holds a member
    other than its owner. A lone member knows no successor. -/
structure Routable (net : Network) (ms : List Nat) : Prop where
  successor : ∀ k ∈ ms, (net.table k).successor? = (Ring.next? net.point ms k).map net.self
  finger : ∀ k ∈ ms, ∀ i n, (net.table k).finger i = some n → ∃ l ∈ ms, l ≠ k ∧ net.self l = n

/-- Every predecessor is the previous member, too. -/
structure Consistent (net : Network) (ms : List Nat) : Prop extends Routable net ms where
  predecessor : ∀ k ∈ ms, net.predecessor? k = (Ring.prev? net.point ms k).map net.self

/-! ## One table -/

/-- The table of `k` holds `s` as successor and `p` as predecessor, and its slots hold other members. -/
structure Shows (node : Nat → Node) (ms : List Nat) (k s p : Nat) (t : Table) : Prop where
  successor : t.successor? = some (node s)
  predecessor : t.predecessor = some (node p)
  finger : ∀ i n, t.finger i = some n → ∃ l ∈ ms, l ≠ k ∧ node l = n

section Shows

variable {node : Nat → Node} {ms : List Nat} {k s p c : Nat} {t : Table}

theorem Shows.mono (h : Shows node ms k s p t) {ms' : List Nat} (hs : ms ⊆ ms') :
    Shows node ms' k s p t where
  successor := h.successor
  predecessor := h.predecessor
  finger i n hn := by
    obtain ⟨l, hl, hne, he⟩ := h.finger i n hn
    exact ⟨l, hs hl, hne, he⟩

theorem forall_finger_empty {P : Node → Prop} : ∀ i n, Table.empty.finger i = some n → P n := by
  intro i n hn
  rw [Table.finger_empty] at hn
  cases hn

/-- What holds of all slots holds after a fitting node is set. -/
theorem forall_finger_setFinger {P : Node → Prop} (h : ∀ i n, t.finger i = some n → P n)
    (j : Fin 256) {m : Node} (hm : P m) : ∀ i n, (t.setFinger j m).finger i = some n → P n := by
  intro i n hn
  rw [Table.finger_setFinger] at hn
  split at hn
  · rw [Option.some_inj] at hn
    rw [← hn]
    exact hm
  · exact h i n hn

theorem forall_finger_setPredecessor {P : Node → Prop} (h : ∀ i n, t.finger i = some n → P n)
    (m : Node) : ∀ i n, (t.setPredecessor m).finger i = some n → P n := h

/-- A slot that is set takes slot 0 along where the two shared their entry. -/
theorem successor?_setFinger (t : Table) (i : Fin 256) (n : Node) :
    (t.setFinger i n).successor? = if t.successor? = t.finger i then some n else t.successor? := by
  rw [Table.successor?, Table.finger_setFinger]
  by_cases he : t.successor? = t.finger i
  · rw [if_pos he, if_pos]
    rcases Nat.eq_zero_or_pos i.val with h0 | h0
    · exact .inl h0.symm
    · exact .inr ⟨h0, he⟩
  · rw [if_neg he, if_neg]
    · rfl
    · rintro (h0 | h0)
      · exact he (congrArg t.finger h0)
      · exact he h0.2

theorem Shows.setFinger (h : Shows node ms k s p t) (hc : c ∈ ms) (hne : c ≠ k) (i : Fin 256) :
    Shows node ms k (if t.successor? = t.finger i then c else s) p (t.setFinger i (node c)) where
  successor := by
    rw [successor?_setFinger]
    split
    · rfl
    · exact h.successor
  predecessor := (t.predecessor_setFinger ..).trans h.predecessor
  finger := forall_finger_setFinger h.finger _ ⟨c, hc, hne, rfl⟩

theorem Shows.clearFinger (h : Shows node ms k s p t) {i : Fin 256} (hi : 1 ≤ i.val) :
    Shows node ms k s p (t.clearFinger i) where
  successor := by
    rw [Table.successor?, Table.finger_clearFinger, if_neg (by omega)]
    exact h.successor
  predecessor := h.predecessor
  finger j n hn := by
    rw [Table.finger_clearFinger] at hn
    split at hn
    · cases hn
    · exact h.finger j n hn

theorem Shows.setPredecessor (h : Shows node ms k s p t) (c : Nat) :
    Shows node ms k s c (t.setPredecessor (node c)) :=
  ⟨h.successor, rfl, h.finger⟩

/-- What a member knows that was told of its neighbours and of nothing else. -/
theorem Shows.fresh (hs : s ∈ ms) (hne : s ≠ k) :
    Shows node ms k s p
      ((Table.empty.setFinger Table.successorSlot (node s)).setPredecessor (node p)) where
  successor := by
    rw [Table.successor?, Table.finger_setPredecessor]
    exact Table.empty.finger_setFinger_self Table.successorSlot (node s)
  predecessor := rfl
  finger := forall_finger_setPredecessor
    (forall_finger_setFinger forall_finger_empty Table.successorSlot ⟨s, hs, hne, rfl⟩) (node p)

end Shows

/-! ## All tables -/

/-- The tables of `who` hold the links of `L`, and their slots hold members of `ms`. -/
def Linked (net : Network) (ms who : List Nat) (L : Ring.Links) : Prop :=
  ∀ k ∈ who, Shows net.self ms k (L.succ k) (L.pred k) (net.table k)

section Linked

variable {net net' : Network} {ms who : List Nat} {L : Ring.Links} {k : Nat}

theorem Linked.mono (h : Linked net ms who L) {ms' : List Nat} (hs : ms ⊆ ms') :
    Linked net ms' who L := by
  intro k hk
  exact (h k hk).mono hs

/-- A step that changes no table. -/
theorem Linked.of_kept (h : Linked net ms who L) (hk : Kept net net')
    (ht : net'.table = net.table) : Linked net' ms who L := by
  intro k hm
  rw [hk.self, ht]
  exact h k hm

/-- A step that changes other members than those. -/
theorem Linked.of_member (h : Linked net ms ms L) (hs : ∀ k ∈ ms, L.succ k ∈ ms ∧ L.pred k ∈ ms)
    (he : ∀ k ∈ ms, net'.member k = net.member k) : Linked net' ms ms L := by
  have hself : ∀ k ∈ ms, net'.self k = net.self k := by
    intro k hk
    exact congrArg Member.self (he k hk)
  intro k hk
  rw [Network.table, he k hk]
  constructor
  · rw [hself _ (hs k hk).1]
    exact (h k hk).successor
  · rw [hself _ (hs k hk).2]
    exact (h k hk).predecessor
  · intro i n hn
    obtain ⟨l, hl, hne, hn⟩ := (h k hk).finger i n hn
    exact ⟨l, hl, hne, (hself l hl).trans hn⟩

/-- A step that changes the table of one member, which may be one of whom nothing was said. -/
theorem Linked.update (h : Linked net ms who L) (hk : Kept net net') {t : Table} {s p : Nat}
    (ht : net'.table = Function.update net.table k t) (hs : Shows net.self ms k s p t) :
    Linked net' ms (k :: who) ⟨Function.update L.succ k s, Function.update L.pred k p⟩ := by
  intro i hi
  rw [hk.self, ht]
  by_cases hik : i = k
  · subst hik
    simp only [Function.update_self]
    exact hs
  · simp only [Function.update_of_ne hik]
    exact h i (List.mem_of_ne_of_mem hik hi)

/-- A member puts another one into a slot. -/
theorem Linked.setFinger (h : Linked net ms who L) (hk : k ∈ who) {c : Nat} (hc : c ∈ ms)
    (hne : c ≠ k) {i : Fin 256} (hkept : Kept net net') (ht : net'.table = Function.update net.table k
      ((net.table k).setFinger i (net.self c))) :
    Linked net' ms who { L with
      succ := Function.update L.succ k
        (if (net.table k).successor? = (net.table k).finger i then c else L.succ k) } := by
  have hu := h.update hkept ht ((h k hk).setFinger hc hne i)
  rw [Function.update_eq_self] at hu
  intro i hi
  exact hu i (List.mem_cons_of_mem k hi)

/-- A member takes another one as its successor. -/
theorem Linked.setSuccessor (h : Linked net ms who L) (hk : k ∈ who) {c : Nat} (hc : c ∈ ms)
    (hne : c ≠ k) (hkept : Kept net net') (ht : net'.table = Function.update net.table k
      ((net.table k).setFinger Table.successorSlot (net.self c))) :
    Linked net' ms who { L with succ := Function.update L.succ k c } := by
  have hset := h.setFinger hk hc hne hkept ht
  rw [if_pos (show (net.table k).successor? = (net.table k).finger Table.successorSlot from rfl)] at hset
  exact hset

/-- A member makes a slot past the first one unknown. -/
theorem Linked.clearFinger (h : Linked net ms who L) (hk : k ∈ who) {i : Fin 256} (hi : 1 ≤ i.val)
    (hkept : Kept net net')
    (ht : net'.table = Function.update net.table k ((net.table k).clearFinger i)) :
    Linked net' ms who L := by
  have hu := h.update hkept ht ((h k hk).clearFinger hi)
  rw [Function.update_eq_self, Function.update_eq_self] at hu
  intro i hi
  exact hu i (List.mem_cons_of_mem k hi)

/-- A member takes another one as its predecessor. -/
theorem Linked.setPredecessor (h : Linked net ms who L) (hk : k ∈ who) {c : Nat}
    (hkept : Kept net net') (ht : net'.table = Function.update net.table k
      ((net.table k).setPredecessor (net.self c))) :
    Linked net' ms who { L with pred := Function.update L.pred k c } := by
  have hu := h.update hkept ht ((h k hk).setPredecessor c)
  rw [Function.update_eq_self] at hu
  intro i hi
  exact hu i (List.mem_cons_of_mem k hi)

/-- A successor that is another member is one to ask. -/
theorem Linked.peerSuccessor?_eq (h : Linked net ms who L) (ho : Online net ms) (hk : k ∈ who)
    (hkm : k ∈ ms) (hs : L.succ k ∈ ms) (hne : k ≠ L.succ k) :
    net.peerSuccessor? k = some (net.self (L.succ k)) :=
  peerSuccessor?_of_some (h k hk).successor (ho.self_ne hs hkm hne.symm)

end Linked

/-! ## Exact links -/

section Exact

variable {net : Network} {ms : List Nat} {L : Ring.Links}

theorem Linked.consistent (h : Linked net ms ms L) (he : L.Exact net.point ms) :
    Consistent net ms where
  successor k hk := by rw [(h k hk).successor, (he k hk).1, Option.map_some]
  finger k hk := (h k hk).finger
  predecessor k hk := by rw [predecessor?, (h k hk).predecessor, (he k hk).2, Option.map_some]

/-- A member that knows nobody is a ring of its own. -/
theorem consistent_singleton {k : Nat} (h : net.table k = .empty) : Consistent net [k] := by
  have hk : k ∈ [k] := List.mem_singleton_self k
  refine ⟨⟨?_, ?_⟩, ?_⟩ <;> intro l hl <;> rw [List.mem_singleton] at hl <;> subst hl
  · rw [h, (Ring.next?_eq_none_iff hk).2 rfl]
    exact Table.finger_empty 0
  · rw [h]
    exact forall_finger_empty
  · rw [predecessor?, h, (Ring.prev?_eq_none_iff hk).2 rfl]
    rfl

end Exact

/-! ## An instance -/

/-- Three members on a ring that is as it should be, and a fourth member that has not joined. The first
    member knows the last one in slots that it has not refreshed for long. -/
def trio : Network where
  members :=
    [{ self := ⟨.one, "a"⟩, hopLimit := 4, joinThrough := none, fingersPerTick := 1
       table := ((Table.empty.setFinger 9 ⟨.last, "c"⟩).setFinger Table.successorSlot
         ⟨.ofNat 5, "b"⟩).setPredecessor ⟨.last, "c"⟩ },
     { self := ⟨.ofNat 5, "b"⟩, hopLimit := 4, joinThrough := some "a", fingersPerTick := 1
       table := (Table.empty.setFinger Table.successorSlot ⟨.last, "c"⟩).setPredecessor
         ⟨.one, "a"⟩ },
     { self := ⟨.last, "c"⟩, hopLimit := 3, joinThrough := some "a", fingersPerTick := 1
       table := (Table.empty.setFinger Table.successorSlot ⟨.one, "a"⟩).setPredecessor
         ⟨.ofNat 5, "b"⟩ },
     { self := ⟨.ofNat 3, "d"⟩, hopLimit := 0, joinThrough := some "c", fingersPerTick := 1 }]
  registry := [("a", 0), ("b", 1), ("c", 2), ("d", 3)]

theorem online_trio : Online trio [3, 0, 1, 2] :=
  ⟨rfl, ⟨by decide, by decide⟩, by decide, by decide⟩

theorem consistent_trio : Consistent trio [0, 1, 2] where
  successor := by decide +kernel
  predecessor := by decide +kernel
  finger := by
    have ha : trio.table 0 = ((Table.empty.setFinger 9 ⟨.last, "c"⟩).setFinger
        Table.successorSlot ⟨.ofNat 5, "b"⟩).setPredecessor ⟨.last, "c"⟩ := rfl
    have hb : trio.table 1 = (Table.empty.setFinger Table.successorSlot ⟨.last, "c"⟩).setPredecessor
        ⟨.one, "a"⟩ := rfl
    have hc : trio.table 2 = (Table.empty.setFinger Table.successorSlot ⟨.one, "a"⟩).setPredecessor
        ⟨.ofNat 5, "b"⟩ := rfl
    intro k hk
    simp only [List.mem_cons, List.not_mem_nil, or_false] at hk
    rcases hk with rfl | rfl | rfl
    · rw [ha]
      exact forall_finger_setPredecessor (forall_finger_setFinger
        (forall_finger_setFinger forall_finger_empty _ ⟨2, by decide⟩) _ ⟨1, by decide⟩) _
    · rw [hb]
      exact forall_finger_setPredecessor
        (forall_finger_setFinger forall_finger_empty _ ⟨2, by decide⟩) _
    · rw [hc]
      exact forall_finger_setPredecessor
        (forall_finger_setFinger forall_finger_empty _ ⟨0, by decide⟩) _

end RingOverlay.Network
