import Mathlib.Logic.Function.Basic
import RingOverlay.Network.Upkeep

/-!
# `Network.Frame` — what a step of the protocol leaves as it is

A step changes what some members know and what has been reported and asked, never who is on the network.
`Kept` says the second and `Confined` which members may change; each change of a network has one lemma for
both. What a change does to the tables is said through the view `Network.table`, a function from positions
to tables: one equation for each change.

## Contents
- **Set-up.** `Profile`, `Kept` and what it carries over; `Confined`, for steps of some members only.
- **Silence.** `Quiet`, for steps that change no member at all.
- **Changes.** `confined_…` and `table_…` for each change; `announceIfReady_cases`, what an announcement is.
-/

namespace RingOverlay

/-- What is settled about a member when it is made, and whether it still exists. -/
structure Profile where
  self : Node
  hopLimit : UInt32
  joinThrough : Option String
  fingersPerTick : Nat
  alive : Bool

/-- The profile of a member. -/
def Member.profile (m : Member) : Profile :=
  ⟨m.self, m.hopLimit, m.joinThrough, m.fingersPerTick, m.alive⟩

namespace Network

/-- The point of the member at position `k`. -/
def point (net : Network) (k : Nat) : RingId := (net.self k).id

/-! ## Set-up -/

/-- The same members answer at the same endpoints. What they know may differ. -/
structure Kept (net net' : Network) : Prop where
  profiles : net'.members.map Member.profile = net.members.map Member.profile
  registry : net'.registry = net.registry
  script : net'.script = net.script

section Kept

variable {net net' net'' : Network}

theorem Kept.refl (net : Network) : Kept net net := ⟨rfl, rfl, rfl⟩

theorem Kept.trans (h : Kept net net') (h' : Kept net' net'') : Kept net net'' :=
  ⟨h'.profiles.trans h.profiles, h'.registry.trans h.registry, h'.script.trans h.script⟩

theorem Kept.length (h : Kept net net') : net'.members.length = net.members.length := by
  rw [← List.length_map (f := Member.profile), h.profiles, List.length_map]

theorem Kept.profile (h : Kept net net') (k : Nat) :
    (net'.member k).profile = (net.member k).profile := by
  have hk : (net'.members[k]?).map Member.profile = (net.members[k]?).map Member.profile := by
    rw [← List.getElem?_map, h.profiles, List.getElem?_map]
  unfold member
  cases h' : net'.members[k]? with
  | none =>
    rw [h', Option.map_none, eq_comm, Option.map_eq_none_iff] at hk
    rw [hk]
  | some m =>
    rw [h', Option.map_some, eq_comm, Option.map_eq_some_iff] at hk
    obtain ⟨n, hn, he⟩ := hk
    rw [hn]
    exact he.symm

theorem Kept.self (h : Kept net net') : net'.self = net.self :=
  funext fun k => congrArg Profile.self (h.profile k)

theorem Kept.point (h : Kept net net') : net'.point = net.point := by
  funext k
  rw [Network.point, h.self, Network.point]

theorem Kept.hopLimit (h : Kept net net') (k : Nat) :
    (net'.member k).hopLimit = (net.member k).hopLimit :=
  congrArg Profile.hopLimit (h.profile k)

theorem Kept.joinThrough (h : Kept net net') (k : Nat) :
    (net'.member k).joinThrough = (net.member k).joinThrough :=
  congrArg Profile.joinThrough (h.profile k)

theorem Kept.find? (h : Kept net net') (endpoint : String) :
    net'.find? endpoint = net.find? endpoint := by
  have hany : ∀ (net : Network) (k : Nat), (net.members[k]?).any Member.alive
      = ((net.members.map Member.profile)[k]?).any Profile.alive := by
    intro net k
    rw [List.getElem?_map, Option.any_map]
    rfl
  unfold Network.find?
  rw [h.registry]
  simp only [hany, h.profiles]

end Kept

/-- The same members, of which those outside `who` are in the same state. -/
structure Confined (who : List Nat) (net net' : Network) : Prop extends Kept net net' where
  member : ∀ i, i ∉ who → net'.member i = net.member i

section Confined

variable {net net' net'' : Network} {who : List Nat}

theorem Confined.refl (who : List Nat) (net : Network) : Confined who net net :=
  ⟨.refl net, fun _ _ => rfl⟩

theorem Confined.trans (h : Confined who net net') (h' : Confined who net' net'') :
    Confined who net net'' :=
  ⟨h.toKept.trans h'.toKept, fun i hi => (h'.member i hi).trans (h.member i hi)⟩

theorem Confined.mono (h : Confined who net net') {who' : List Nat} (hs : who ⊆ who') :
    Confined who' net net' :=
  ⟨h.toKept, fun i hi => h.member i fun hw => hi (hs hw)⟩

end Confined

/-! ## Silence -/

/-- The same members in the same state. What has been reported and asked may differ. -/
structure Quiet (net net' : Network) : Prop where
  members : net'.members = net.members
  registry : net'.registry = net.registry
  script : net'.script = net.script

section Quiet

variable {net net' net'' : Network}

theorem Quiet.refl (net : Network) : Quiet net net := ⟨rfl, rfl, rfl⟩

theorem Quiet.trans (h : Quiet net net') (h' : Quiet net' net'') : Quiet net net'' :=
  ⟨h'.members.trans h.members, h'.registry.trans h.registry, h'.script.trans h.script⟩

theorem Quiet.symm (h : Quiet net net') : Quiet net' net :=
  ⟨h.members.symm, h.registry.symm, h.script.symm⟩

theorem Quiet.kept (h : Quiet net net') : Kept net net' :=
  ⟨congrArg _ h.members, h.registry, h.script⟩

theorem Quiet.member (h : Quiet net net') : net'.member = net.member := by
  funext k
  rw [Network.member, h.members, Network.member]

theorem Quiet.table (h : Quiet net net') : net'.table = net.table := by
  funext k
  rw [Network.table, h.member, Network.table]

theorem Quiet.confined (h : Quiet net net') {who : List Nat} : Confined who net net' :=
  ⟨h.kept, fun i _ => congrFun h.member i⟩

theorem quiet_note (net : Network) (n : Note) : Quiet net (net.note n) := ⟨rfl, rfl, rfl⟩

end Quiet

/-! ## Changes -/

section Changes

variable (net : Network) {who : List Nat} {k : Nat}

/-- What a change of a member spares. -/
theorem map_update_of_spared {α : Type} {g : Member → α} {f : Member → Member} (k : Nat)
    (hf : ∀ m, g (f m) = g m) : (net.update k f).members.map g = net.members.map g := by
  apply List.ext_getElem?
  intro i
  rw [update, List.getElem?_map, List.getElem?_modify, List.getElem?_map]
  cases net.members[i]? with
  | none => rfl
  | some m =>
    simp only [Option.map_eq_map, Option.map_some]
    split
    · exact congrArg some (hf m)
    · rfl

theorem confined_update (hk : k ∈ who) {f : Member → Member}
    (hf : ∀ m, (f m).profile = m.profile) : Confined who net (net.update k f) := by
  refine ⟨⟨net.map_update_of_spared k hf, rfl, rfl⟩, ?_⟩
  intro i hi
  apply member_update_of_ne
  rintro rfl
  exact hi hk

theorem confined_note (n : Note) : Confined who net (net.note n) := (quiet_note net n).confined

theorem confined_modifyTable (hk : k ∈ who) (f : Table → Table) :
    Confined who net (net.modifyTable k f) :=
  net.confined_update hk fun _ => rfl

theorem confined_publish (hk : k ∈ who) (e : RingEvent) : Confined who net (net.publish k e) :=
  (net.confined_note _).trans ((net.note _).confined_update hk fun _ => rfl)

theorem confined_setFinger (hk : k ∈ who) (i : Fin 256) (n : Node) :
    Confined who net (net.setFinger k i n) := by
  unfold setFinger
  split
  · exact .refl who net
  · exact (net.confined_modifyTable hk _).trans (confined_note _ _)

theorem confined_clearFinger (hk : k ∈ who) (i : Fin 256) : Confined who net (net.clearFinger k i) :=
  net.confined_modifyTable hk _

theorem confined_setPredecessor (hk : k ∈ who) (n : Node) :
    Confined who net (net.setPredecessor k n) :=
  (net.confined_note _).trans (confined_modifyTable _ hk _)

theorem confined_clearPredecessor (hk : k ∈ who) : Confined who net (net.clearPredecessor k) :=
  net.confined_modifyTable hk _

theorem confined_remove (hk : k ∈ who) (id : RingId) : Confined who net (net.remove k id) :=
  (net.confined_modifyTable hk _).trans (confined_note _ _)

theorem confined_reset (hk : k ∈ who) : Confined who net (net.reset k) :=
  (net.confined_modifyTable hk _).trans (confined_note _ _)

theorem confined_adoptPredecessor (hk : k ∈ who) (n : Node) :
    Confined who net (net.adoptPredecessor k n) := by
  unfold adoptPredecessor
  simp only
  split
  · exact net.confined_setPredecessor hk n
  · exact (net.confined_setPredecessor hk n).trans (confined_publish _ hk _)

theorem confined_setAnnounced (hk : k ∈ who) (b : Bool) : Confined who net (net.setAnnounced k b) :=
  net.confined_update hk fun _ => rfl

theorem confined_moveCursor (hk : k ∈ who) : Confined who net (net.moveCursor k) :=
  net.confined_update hk fun _ => rfl

theorem confined_bootstrap (hk : k ∈ who) : Confined who net (net.bootstrap k) :=
  ((net.confined_reset hk).trans (confined_setAnnounced _ hk _)).trans (confined_note _ _)

theorem confined_announceIfReady (hk : k ∈ who) : Confined who net (net.announceIfReady k) := by
  unfold announceIfReady
  simp only
  split
  · split
    · exact .refl who net
    · exact ((net.confined_setAnnounced hk _).trans (confined_note _ _)).trans
        (confined_publish _ hk _)
  · exact .refl who net

theorem confined_dropSuccessor (hk : k ∈ who) (n : Node) (fault : TransportFault) :
    Confined who net (net.dropSuccessor k n fault) :=
  ((net.confined_note _).trans (confined_remove _ hk _)).trans (confined_publish _ hk _)

theorem table_note (n : Note) : (net.note n).table = net.table := rfl

/-- What a change of a member spares, of any member. -/
theorem member_update_of_spared {α : Type} (g : Member → α) {f : Member → Member} (k : Nat)
    (hf : ∀ m, g (f m) = g m) (i : Nat) : g ((net.update k f).member i) = g (net.member i) := by
  simp only [member, update, List.getElem?_modify]
  cases net.members[i]? with
  | none => rfl
  | some m =>
    simp only [Option.map_eq_map, Option.map_some, Option.getD_some]
    split
    · exact hf m
    · rfl

/-- A change of a member that spares its table. -/
theorem table_update_of_spared (k : Nat) {f : Member → Member} (hf : ∀ m, (f m).table = m.table) :
    (net.update k f).table = net.table :=
  funext (net.member_update_of_spared Member.table k hf)

variable {net}

theorem table_modifyTable (hk : k < net.members.length) (f : Table → Table) :
    (net.modifyTable k f).table = Function.update net.table k (f (net.table k)) := by
  funext i
  by_cases hi : i = k
  · subst hi
    rw [Function.update_self, table_modifyTable_self net f hk]
  · rw [Function.update_of_ne hi, table_modifyTable_of_ne net f (Ne.symm hi)]

theorem table_setFinger (hk : k < net.members.length) (i : Fin 256) (n : Node) :
    (net.setFinger k i n).table = Function.update net.table k ((net.table k).setFinger i n) := by
  unfold setFinger
  split
  · next h =>
    rw [Table.setFinger, if_pos h, Function.update_eq_self]
  · rw [table_note, table_modifyTable hk]

theorem table_clearFinger (hk : k < net.members.length) (i : Fin 256) :
    (net.clearFinger k i).table = Function.update net.table k ((net.table k).clearFinger i) :=
  table_modifyTable hk _

theorem table_setPredecessor (hk : k < net.members.length) (n : Node) :
    (net.setPredecessor k n).table
      = Function.update net.table k ((net.table k).setPredecessor n) :=
  table_modifyTable (by exact hk) _

theorem table_clearPredecessor (hk : k < net.members.length) :
    (net.clearPredecessor k).table
      = Function.update net.table k (net.table k).clearPredecessor :=
  table_modifyTable hk _

theorem table_remove (hk : k < net.members.length) (id : RingId) :
    (net.remove k id).table = Function.update net.table k ((net.table k).remove id) := by
  rw [remove, table_note, table_modifyTable hk]

theorem table_reset (hk : k < net.members.length) :
    (net.reset k).table = Function.update net.table k .empty := by
  rw [reset, table_note, table_modifyTable hk]

variable (net)

theorem table_publish (k : Nat) (e : RingEvent) : (net.publish k e).table = net.table :=
  table_update_of_spared (net.note _) k fun _ => rfl

theorem table_setAnnounced (k : Nat) (b : Bool) : (net.setAnnounced k b).table = net.table :=
  net.table_update_of_spared k fun _ => rfl

theorem table_moveCursor (k : Nat) : (net.moveCursor k).table = net.table :=
  net.table_update_of_spared k fun _ => rfl

theorem table_announceIfReady (k : Nat) : (net.announceIfReady k).table = net.table := by
  unfold announceIfReady
  simp only
  split
  · split
    · rfl
    · rw [table_publish, table_note, table_setAnnounced]
  · rfl

/-- One that knows a successor is a member. -/
theorem lt_length_of_successor {s : Node} (hs : (net.table k).successor? = some s) :
    k < net.members.length := by
  by_contra hk
  have hm : net.member k = default := by
    rw [member, List.getElem?_eq_none (Nat.le_of_not_lt hk), Option.getD_none]
  rw [table, hm] at hs
  cases hs

/-- What a member does where it may announce itself: nothing, or it announces where it stands, for the first
    time since it forgot that it did. -/
theorem announceIfReady_cases (k : Nat) : net.announceIfReady k = net ∨ ∃ s p,
    (net.table k).successor? = some s ∧ (net.table k).predecessor = some p ∧ s ≠ net.self k ∧
    (net.member k).announced = false ∧ (net.announceIfReady k).member k
      = { net.member k with announced := true, events := .joined s p :: (net.member k).events } := by
  unfold announceIfReady
  simp only
  split
  · next s p hs hp =>
    split
    · exact .inl rfl
    · next hready =>
      obtain ⟨hpeer, hforgot⟩ := not_or.1 hready
      have hk := net.lt_length_of_successor hs
      have hlen : k < (((net.setAnnounced k true).note (.inRing (net.member k).self p s)).note
          (.published (.joined s p))).members.length :=
        (net.length_members_update k _).symm ▸ hk
      refine .inr ⟨s, p, hs, hp, hpeer, Bool.eq_false_iff.2 hforgot, ?_⟩
      rw [publish, member_update_self _ _ hlen, member_note, member_note, setAnnounced,
        member_update_self _ _ hk]
  · exact .inl rfl

variable {net}

theorem table_adoptPredecessor (hk : k < net.members.length) (n : Node) :
    (net.adoptPredecessor k n).table
      = Function.update net.table k ((net.table k).setPredecessor n) := by
  unfold adoptPredecessor
  simp only
  split
  · exact table_setPredecessor hk n
  · rw [table_publish, table_setPredecessor hk]

theorem table_bootstrap (hk : k < net.members.length) :
    (net.bootstrap k).table = Function.update net.table k .empty := by
  rw [bootstrap, table_note, table_setAnnounced, table_reset hk]

theorem table_dropSuccessor (hk : k < net.members.length) (n : Node) (fault : TransportFault) :
    (net.dropSuccessor k n fault).table
      = Function.update net.table k ((net.table k).remove n.id) := by
  rw [dropSuccessor, table_publish, table_remove (by exact hk)]
  rfl

end Changes

end Network

end RingOverlay
