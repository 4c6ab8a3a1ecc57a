import RingOverlay.Proofs.Network.Neighbours

/-!
# `Network.Acquaintance` — members know only other members

`Acquainted ns net` says that the members have the nodes `ns`, and that every entry of every table is one of
them, to the letter, and another one than the member that has it. Every change that a step makes keeps
this if the node that it writes is another member.

## Contents
- **One table.** `Table.All`, kept by each change.
- **All tables.** `nodes`, `Acquainted` and its readings.
- **Changes.** One lemma for each change of a network.
-/

namespace RingOverlay

/-! ## One table -/

/-- Every entry of a table is of the kind `P`. -/
structure Table.All (P : Node → Prop) (t : Table) : Prop where
  finger : ∀ i n, t.finger i = some n → P n
  predecessor : ∀ n, t.predecessor = some n → P n

namespace Table

variable {P : Node → Prop} {t : Table} {self n : Node}

theorem all_empty : empty.All P := ⟨Network.forall_finger_empty, nofun⟩

theorem All.setFinger (h : t.All P) (i : Fin 256) (hn : P n) : (t.setFinger i n).All P where
  finger := Network.forall_finger_setFinger h.finger i hn
  predecessor m hm := h.predecessor m ((t.predecessor_setFinger i n).symm.trans hm)

theorem All.clearFinger (h : t.All P) (i : Fin 256) : (t.clearFinger i).All P where
  finger j m hm := by
    rw [finger_clearFinger] at hm
    split at hm
    · cases hm
    · exact h.finger j m hm
  predecessor := h.predecessor

theorem All.setPredecessor (h : t.All P) (hn : P n) : (t.setPredecessor n).All P where
  finger := h.finger
  predecessor m hm := by
    obtain rfl : n = m := Option.some_inj.1 hm
    exact hn

theorem All.clearPredecessor (h : t.All P) : t.clearPredecessor.All P := ⟨h.finger, nofun⟩

theorem All.remove (h : t.All P) (id : RingId) : (t.remove id).All P where
  finger i m hm := by
    obtain ⟨⟨j, hj⟩, -⟩ := finger_remove t hm
    exact h.finger j m hj
  predecessor m hm := h.predecessor m (Option.filter_eq_some_iff.1 hm).1

theorem All.peerSuccessor? (h : t.All P) (hn : t.peerSuccessor? self = some n) : P n :=
  h.finger 0 n (Option.filter_eq_some_iff.1 hn).1

/-- The owner of a route is the successor, or the member itself while it knows none. -/
theorem All.owner_of_route {Q : Node → Prop} (h : t.All Q) (hself : Q self) {id : RingId}
    (hroute : t.route self id = .owner n) : Q n := by
  unfold route Route.choose at hroute
  split at hroute
  · rw [Route.owner.injEq] at hroute
    rw [← hroute]
    cases hs : t.successor? with
    | none => exact hself
    | some s => exact h.finger 0 s hs
  · cases hroute

theorem All.mono (h : t.All P) {Q : Node → Prop} (hPQ : ∀ n, P n → Q n) : t.All Q :=
  ⟨fun i n hn => hPQ n (h.finger i n hn), fun n hn => hPQ n (h.predecessor n hn)⟩

end Table

namespace Network

variable {ns : List Node} {net net' : Network} {k : Nat}

/-! ## All tables -/

/-- The nodes of all members. -/
def nodes (net : Network) : List Node := net.members.map Member.self

theorem Kept.nodes (h : Kept net net') : net'.nodes = net.nodes := by
  have hprofile : ∀ net : Network, net.nodes = (net.members.map Member.profile).map Profile.self := by
    intro net
    rw [List.map_map]
    rfl
  rw [hprofile, h.profiles, ← hprofile]

theorem self_of_nodes (h : net'.nodes = net.nodes) : net'.self = net.self := by
  have hself : ∀ (net : Network) (k : Nat),
      net.self k = ((net.nodes[k]?).getD (default : Member).self) := by
    intro net k
    rw [nodes, List.getElem?_map, Option.getD_map]
    rfl
  funext k
  rw [hself, hself, h]

/-- The members have the nodes `ns`, and each knows only others of them. No scripted answer speaks of
    anyone else. -/
structure Acquainted (ns : List Node) (net : Network) : Prop where
  script : net.script = []
  nodes : net.nodes = ns
  known : ∀ k, (net.table k).All fun n => n ∈ ns ∧ n ≠ net.self k

namespace Acquainted

theorem self_eq (h : Acquainted ns net) (h' : Acquainted ns net') : net'.self = net.self :=
  self_of_nodes (h'.nodes.trans h.nodes.symm)

theorem length_eq (h : Acquainted ns net) : net.members.length = ns.length := by
  rw [← h.nodes, Network.nodes, List.length_map]

theorem lt_length (h : Acquainted ns net) (hk : k < ns.length) : k < net.members.length := by
  rw [h.length_eq]
  exact hk

theorem self_mem (h : Acquainted ns net) (hk : k < ns.length) : net.self k ∈ ns := by
  have hl := h.lt_length hk
  have hself : net.self k = net.members[k].self := by
    rw [Network.self, member, List.getElem?_eq_getElem hl, Option.getD_some]
  rw [hself, ← h.nodes]
  exact List.mem_map_of_mem (List.getElem_mem hl)

theorem successor_mem (h : Acquainted ns net) (hk : k < ns.length) :
    (net.peerSuccessor? k).getD (net.self k) ∈ ns := by
  cases hs : net.peerSuccessor? k with
  | none => exact h.self_mem hk
  | some n => exact ((h.known k).peerSuccessor? hs).1

theorem predecessor_mem (h : Acquainted ns net) (hk : k < ns.length) :
    (net.predecessor? k).getD (net.self k) ∈ ns := by
  cases hp : net.predecessor? k with
  | none => exact h.self_mem hk
  | some n => exact ((h.known k).predecessor n hp).1

/-- A step that changes no node and no table. -/
theorem of_nodes (h : Acquainted ns net) (hs : net'.script = net.script) (hn : net'.nodes = net.nodes)
    (ht : net'.table = net.table) : Acquainted ns net' where
  script := hs.trans h.script
  nodes := hn.trans h.nodes
  known l := by
    rw [ht, self_of_nodes hn]
    exact h.known l

theorem of_kept (h : Acquainted ns net) (hkept : Kept net net') (ht : net'.table = net.table) :
    Acquainted ns net' :=
  h.of_nodes hkept.script hkept.nodes ht

theorem of_quiet (h : Acquainted ns net) (hq : Quiet net net') : Acquainted ns net' :=
  h.of_kept hq.kept hq.table

/-- A step that changes the table of one member. -/
theorem update (h : Acquainted ns net) (hc : Confined [k] net net') {tbl : Table}
    (ht : net'.table = Function.update net.table k tbl)
    (hall : tbl.All fun n => n ∈ ns ∧ n ≠ net.self k) : Acquainted ns net' where
  script := hc.script.trans h.script
  nodes := hc.toKept.nodes.trans h.nodes
  known l := by
    rw [ht, hc.toKept.self]
    by_cases hl : l = k
    · subst hl
      rw [Function.update_self]
      exact hall
    · rw [Function.update_of_ne hl]
      exact h.known l

/-! ## Changes -/

section Changes

variable {n : Node}

theorem note (h : Acquainted ns net) (note : Note) : Acquainted ns (net.note note) :=
  h.of_quiet (quiet_note net note)

theorem setFinger (h : Acquainted ns net) (hk : k < ns.length) (hn : n ∈ ns) (hne : n ≠ net.self k)
    (i : Fin 256) : Acquainted ns (net.setFinger k i n) :=
  h.update (net.confined_setFinger (List.mem_singleton_self k) i n)
    (table_setFinger (h.lt_length hk) i n) ((h.known k).setFinger i ⟨hn, hne⟩)

theorem clearFinger (h : Acquainted ns net) (hk : k < ns.length) (i : Fin 256) :
    Acquainted ns (net.clearFinger k i) :=
  h.update (net.confined_clearFinger (List.mem_singleton_self k) i)
    (table_clearFinger (h.lt_length hk) i) ((h.known k).clearFinger i)

theorem setPredecessor (h : Acquainted ns net) (hk : k < ns.length) (hn : n ∈ ns)
    (hne : n ≠ net.self k) : Acquainted ns (net.setPredecessor k n) :=
  h.update (net.confined_setPredecessor (List.mem_singleton_self k) n)
    (table_setPredecessor (h.lt_length hk) n) ((h.known k).setPredecessor ⟨hn, hne⟩)

theorem clearPredecessor (h : Acquainted ns net) (hk : k < ns.length) :
    Acquainted ns (net.clearPredecessor k) :=
  h.update (net.confined_clearPredecessor (List.mem_singleton_self k))
    (table_clearPredecessor (h.lt_length hk)) (h.known k).clearPredecessor

theorem remove (h : Acquainted ns net) (hk : k < ns.length) (id : RingId) :
    Acquainted ns (net.remove k id) :=
  h.update (net.confined_remove (List.mem_singleton_self k) id)
    (table_remove (h.lt_length hk) id) ((h.known k).remove id)

theorem bootstrap (h : Acquainted ns net) (hk : k < ns.length) : Acquainted ns (net.bootstrap k) :=
  h.update (net.confined_bootstrap (List.mem_singleton_self k)) (table_bootstrap (h.lt_length hk))
    Table.all_empty

theorem adoptPredecessor (h : Acquainted ns net) (hk : k < ns.length) (hn : n ∈ ns)
    (hne : n ≠ net.self k) : Acquainted ns (net.adoptPredecessor k n) :=
  h.update (net.confined_adoptPredecessor (List.mem_singleton_self k) n)
    (table_adoptPredecessor (h.lt_length hk) n) ((h.known k).setPredecessor ⟨hn, hne⟩)

theorem publish (h : Acquainted ns net) (k : Nat) (e : RingEvent) : Acquainted ns (net.publish k e) :=
  h.of_kept (net.confined_publish (List.mem_singleton_self k) e).toKept (net.table_publish k e)

theorem setAnnounced (h : Acquainted ns net) (k : Nat) (b : Bool) :
    Acquainted ns (net.setAnnounced k b) :=
  h.of_kept (net.confined_setAnnounced (List.mem_singleton_self k) b).toKept
    (net.table_setAnnounced k b)

theorem announceIfReady (h : Acquainted ns net) (k : Nat) : Acquainted ns (net.announceIfReady k) :=
  h.of_kept (net.confined_announceIfReady (List.mem_singleton_self k)).toKept
    (net.table_announceIfReady k)

theorem moveCursor (h : Acquainted ns net) (k : Nat) : Acquainted ns (net.moveCursor k) :=
  h.of_kept (net.confined_moveCursor (List.mem_singleton_self k)).toKept (net.table_moveCursor k)

theorem drop (h : Acquainted ns net) (k : Nat) : Acquainted ns (net.drop k) :=
  h.of_nodes rfl (net.map_update_of_spared k fun _ => rfl)
    (net.table_update_of_spared k fun _ => rfl)

theorem learnPredecessor (h : Acquainted ns net) (hk : k < ns.length) {told : Option Node}
    (hn : ∀ n, told = some n → n ∈ ns) : Acquainted ns (net.learnPredecessor k told) := by
  unfold Network.learnPredecessor
  cases told with
  | none => exact h
  | some n =>
    simp only
    split
    · next hne => exact h.setPredecessor hk (hn n rfl) hne.1
    · exact h

theorem moveCloser (h : Acquainted ns net) (hk : k < ns.length) (successor : Node)
    {candidate : Option Node} (hn : ∀ n, candidate = some n → n ∈ ns) :
    Acquainted ns (net.moveCloser k successor candidate) := by
  unfold Network.moveCloser
  cases candidate with
  | none => exact h
  | some n =>
    simp only
    split
    · next hb =>
      refine (h.note _).setFinger hk (hn n rfl) ?_ _
      -- a node strictly between two points is not at the first of them
      intro he
      rw [show n = net.self k from he] at hb
      exact RingId.not_between_left _ _ hb
    · exact h

theorem dropSuccessor (h : Acquainted ns net) (hk : k < ns.length) (successor : Node)
    (fault : TransportFault) : Acquainted ns (net.dropSuccessor k successor fault) :=
  ((h.note _).remove hk successor.id).publish k _

theorem dropPredecessor (h : Acquainted ns net) (hk : k < ns.length) (predecessor : Node)
    (fault : TransportFault) : Acquainted ns (net.dropPredecessor k predecessor fault) := by
  have h₁ := h.note (.predecessorFailed predecessor fault)
  unfold Network.dropPredecessor
  simp only
  split
  · exact (h₁.clearPredecessor hk).publish k _
  · exact h₁.publish k _

theorem adoptNotifier (h : Acquainted ns net) (hk : k < ns.length) (hn : n ∈ ns)
    (hne : n ≠ net.self k) : Acquainted ns (net.adoptNotifier k n) := by
  unfold Network.adoptNotifier
  split
  · exact h
  · exact (h.note _).setFinger hk hn hne _

end Changes

end Acquainted

end Network

end RingOverlay
