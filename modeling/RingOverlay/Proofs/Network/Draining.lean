import Mathlib.Data.Finset.Card
import RingOverlay.Proofs.Network.Foothold
import RingOverlay.Proofs.Table.Removal

/-!
# `Network.Draining` — peers that do not answer are lost one by one

A member whose requests are never answered asks its successor, drops it, and asks the one that has taken its
place. Each time one point leaves the table, from all slots that name it and under whatever endpoints, and no
removed point comes back. Slot 0 is filled from above, so the member has a successor to ask as long as it knows
anyone. Hence it takes as many rounds as there are points in its slots until it knows nobody, each round is
announced once, and from then on it is silent.

The measure is the set of points in slots, `Table.points`: a round takes one element away from it.

## Contents
- **Points.** `Table.points`, `points_remove`.
- **One round.** `Unanswered`, `stabilize_of_unanswered`; `stabilize_of_unknown`.
- **A run.** `stabilized`, `Drained`, `Drained.cons`.
- **The member.** `drained_of_unanswered`.
-/

namespace RingOverlay

/-! ## Points -/

namespace Table

variable {t : Table} {x : RingId}

/-- The points of the nodes in slots. -/
def points (t : Table) : Finset RingId := (t.known.map Node.id).toFinset

theorem mem_points : x ∈ t.points ↔ ∃ i n, t.finger i = some n ∧ n.id = x := by
  rw [points, List.mem_toFinset, List.mem_map]
  simp only [mem_known]
  constructor
  · rintro ⟨n, ⟨i, hi⟩, hn⟩
    exact ⟨i, n, hi, hn⟩
  · rintro ⟨i, n, hi, hn⟩
    exact ⟨n, ⟨i, hi⟩, hn⟩

theorem points_eq_empty_iff : t.points = ∅ ↔ ∀ i, t.finger i = none := by
  rw [Finset.eq_empty_iff_forall_notMem]
  constructor
  · intro h i
    cases hi : t.finger i with
    | none => rfl
    | some n => exact absurd (mem_points.2 ⟨i, n, hi, rfl⟩) (h n.id)
  · intro h x hx
    obtain ⟨i, n, hi, -⟩ := mem_points.1 hx
    rw [h i] at hi
    cases hi

/-- A removal takes one point away, and no other. -/
theorem points_remove (t : Table) (x : RingId) : (t.remove x).points = t.points.erase x := by
  ext y
  rw [Finset.mem_erase, mem_points, mem_points]
  constructor
  · rintro ⟨i, n, hi, rfl⟩
    obtain ⟨⟨j, hj⟩, hne⟩ := finger_remove t hi
    exact ⟨hne, j, n, hj, rfl⟩
  · rintro ⟨hne, i, n, hi, rfl⟩
    have hstays : (t.removeEach [x]).finger i = t.finger i := by
      apply finger_removeEach_of_notMem
      intro m hm
      rw [hi, Option.some_inj] at hm
      subst hm
      simpa using hne
    exact ⟨i, n, hstays.trans hi, rfl⟩

end Table

namespace Network

variable {net : Network} {t : Transport} {ts : Nat → Transport} {k : Nat} {s : Node} {lost : List Node}

/-! ## One round -/

/-- The request with which the next round of the member at position `k` begins, if there is one, fails. Whatever
    else happens, the member stays as it is meanwhile. -/
def Unanswered (t : Transport) (k : Nat) (net : Network) : Prop :=
  ∀ s, net.peerSuccessor? k = some s → ∃ fault net₁,
    t .stabilize s.endpoint ⟨some (net.self k).contact⟩ net = (.error fault, net₁) ∧
      net₁.members[k]? = net.members[k]?

theorem member_dropSuccessor (hk : k < net.members.length) (n : Node) (fault : TransportFault) :
    (net.dropSuccessor k n fault).member k =
      { net.member k with
        table := (net.member k).table.remove n.id
        events := .successorFailed n :: (net.member k).events } := by
  unfold dropSuccessor publish remove
  rw [member_update_self _ _ (by simpa [modifyTable, note] using hk), member_note, member_note,
    modifyTable, member_update_self _ _ (by exact hk), member_note]

/-- A successor that does not answer is dropped, which is announced. -/
theorem stabilize_of_unanswered (hk : k < net.members.length) (hs : net.peerSuccessor? k = some s)
    (h : Unanswered t k net) : ∃ net', stabilize t k net = (.ok (), net') ∧
      k < net'.members.length ∧ net'.member k =
        { net.member k with
          table := (net.member k).table.remove s.id
          events := .successorFailed s :: (net.member k).events } := by
  obtain ⟨fault, net₁, ht, hm⟩ := h s hs
  have hk₁ : k < net₁.members.length := by
    rw [List.getElem?_eq_getElem hk] at hm
    exact (List.getElem?_eq_some_iff.1 hm).1
  have hmember : net₁.member k = net.member k := by rw [member, hm, member]
  refine ⟨net₁.dropSuccessor k s fault, ?_, ?_, ?_⟩
  · unfold stabilize
    rw [hs]
    simp only
    rw [ht]
  · have hconf := confined_dropSuccessor net₁ (List.mem_singleton_self k) s fault
    exact hconf.length.symm ▸ hk₁
  · rw [member_dropSuccessor hk₁, hmember]

/-- A member that knows no successor asks nobody, whatever transport it has. -/
theorem stabilize_of_unknown (hs : (net.table k).successor? = none) (t : Transport) :
    stabilize t k net = (.ok (), net) := by
  unfold stabilize
  rw [peerSuccessor?_of_none hs]

/-! ## A run -/

/-- The network after the first rounds of the member at position `k`, of which each has a transport of its
    own. -/
def stabilized (ts : Nat → Transport) (k : Nat) (net : Network) : Nat → Network
  | 0 => net
  | j + 1 => (stabilize (ts j) k (stabilized ts k net j)).2

/-- The first round, and then the others. -/
theorem stabilized_succ (ts : Nat → Transport) (k : Nat) (net : Network) (j : Nat) :
    stabilized ts k net (j + 1)
      = stabilized (fun j => ts (j + 1)) k (stabilize (ts 0) k net).2 j := by
  induction j with
  | zero => rfl
  | succ j ih => rw [stabilized, ih, stabilized]

/-- A run in which the member loses the nodes `lost`, one in each round, and then knows nobody. -/
structure Drained (ts : Nat → Transport) (k : Nat) (net : Network) (lost : List Node) : Prop where
  distinct : (lost.map Node.id).Nodup
  points : (lost.map Node.id).toFinset = (net.table k).points
  ok : ∀ j, (stabilize (ts j) k (stabilized ts k net j)).1 = .ok ()
  /-- One event more is announced, and it names the successor. -/
  fails : ∀ j s, lost[j]? = some s → ((stabilized ts k net j).table k).successor? = some s ∧
    ((stabilized ts k net (j + 1)).member k).events
      = .successorFailed s :: ((stabilized ts k net j).member k).events
  /-- No transport is used any more, and nothing changes. -/
  idle : ∀ j, lost.length ≤ j → (∀ i, ((stabilized ts k net j).table k).finger i = none) ∧
    ∀ t, stabilize t k (stabilized ts k net j) = (.ok (), stabilized ts k net j)

theorem drained_of_unknown (h : ∀ i, (net.table k).finger i = none) : Drained ts k net [] := by
  have hstill : ∀ t, stabilize t k net = (.ok (), net) := stabilize_of_unknown (h 0)
  have hrun : ∀ j, stabilized ts k net j = net := by
    intro j
    induction j with
    | zero => rfl
    | succ j ih => rw [stabilized, ih, hstill]
  refine ⟨List.nodup_nil, (Table.points_eq_empty_iff.2 h).symm, ?_, ?_, ?_⟩
  · intro j
    rw [hrun, hstill]
  · intro j s hj
    cases hj
  · intro j _
    rw [hrun]
    exact ⟨h, hstill⟩

/-- A round more at the beginning. -/
theorem Drained.cons (hs : (net.table k).successor? = some s)
    (hok : (stabilize (ts 0) k net).1 = .ok ())
    (htable : (stabilize (ts 0) k net).2.table k = (net.table k).remove s.id)
    (hevents : ((stabilize (ts 0) k net).2.member k).events
      = .successorFailed s :: (net.member k).events)
    (h : Drained (fun j => ts (j + 1)) k (stabilize (ts 0) k net).2 lost) :
    Drained ts k net (s :: lost) := by
  have hpoints := h.points
  rw [htable, Table.points_remove] at hpoints
  have hmem : s.id ∈ (net.table k).points := Table.mem_points.2 ⟨0, s, hs, rfl⟩
  refine ⟨?_, ?_, ?_, ?_, ?_⟩
  · rw [List.map_cons, List.nodup_cons]
    refine ⟨?_, h.distinct⟩
    -- the point that was removed is not among those that are left
    rw [← List.mem_toFinset, hpoints]
    exact Finset.notMem_erase s.id _
  · rw [List.map_cons, List.toFinset_cons, hpoints, Finset.insert_erase hmem]
  · intro j
    cases j with
    | zero => exact hok
    | succ j => rw [stabilized_succ]; exact h.ok j
  · intro j n hj
    cases j with
    | zero =>
      obtain rfl : s = n := by simpa using hj
      exact ⟨hs, hevents⟩
    | succ j =>
      rw [stabilized_succ, stabilized_succ]
      exact h.fails j n hj
  · intro j hj
    cases j with
    | zero => exact absurd hj (Nat.not_succ_le_zero _)
    | succ j =>
      rw [stabilized_succ]
      exact h.idle j (Nat.le_of_succ_le_succ hj)

/-! ## The member -/

/-- A member that has a successor whenever it knows anyone, and does not know itself, loses one point in each
    round that is not answered: the point of its successor. After as many rounds as there are points in its
    slots it knows nobody, and asks and announces nothing more. -/
theorem drained_of_unanswered (hk : k < net.members.length)
    (h : (net.table k).Rooted (net.self k))
    (hrun : ∀ j, Unanswered (ts j) k (stabilized ts k net j)) :
    ∃ lost, lost.length = (net.table k).points.card ∧ Drained ts k net lost := by
  have hdrained : ∃ lost, Drained ts k net lost := by
    -- induction on the number of points that are left
    induction hn : (net.table k).points.card generalizing net ts with
    | zero =>
      rw [Finset.card_eq_zero, Table.points_eq_empty_iff] at hn
      exact ⟨[], drained_of_unknown hn⟩
    | succ n ih =>
      cases hs : (net.table k).successor? with
      | none => exact ⟨[], drained_of_unknown (h.unknown hs)⟩
      | some s =>
        have hne : s ≠ net.self k := by
          rintro rfl
          exact h.finger_ne 0 hs
        obtain ⟨net', hstep, hk', hmember⟩ :=
          stabilize_of_unanswered hk (peerSuccessor?_of_some hs hne) (hrun 0)
        have hself : net'.self k = net.self k := by rw [self, hmember, self]
        have htable : net'.table k = (net.table k).remove s.id := by rw [table, hmember, table]
        have hstate : (stabilize (ts 0) k net).2 = net' := by rw [hstep]
        have hleft : (net'.table k).points.card = n := by
          have hmem : s.id ∈ (net.table k).points := Table.mem_points.2 ⟨0, s, hs, rfl⟩
          rw [htable, Table.points_remove, Finset.card_erase_of_mem hmem, hn, Nat.add_sub_cancel]
        have hrooted : (net'.table k).Rooted (net'.self k) := by
          rw [htable, hself]
          exact h.remove s.id
        have hrest : ∀ j, Unanswered (ts (j + 1)) k (stabilized (fun j => ts (j + 1)) k net' j) := by
          intro j
          have hj := hrun (j + 1)
          rw [stabilized_succ, hstate] at hj
          exact hj
        obtain ⟨lost, hlost⟩ := ih hk' hrooted hrest hleft
        refine ⟨s :: lost, .cons hs ?_ ?_ ?_ ?_⟩
        · rw [hstep]
        · rw [hstate, htable]
        · rw [hstate, hmember]
        · rw [hstate]
          exact hlost
  obtain ⟨lost, hlost⟩ := hdrained
  refine ⟨lost, ?_, hlost⟩
  rw [← hlost.points, List.toFinset_card_of_nodup hlost.distinct, List.length_map]

/-- Nobody answers a member on a network where nobody is registered. -/
theorem unanswered_transport (hs : net.script = []) (hr : net.registry = []) (k : Nat) :
    Unanswered transport k net := by
  intro s _
  have hlost : net.find? s.endpoint = none := by rw [find?, hr]; rfl
  exact ⟨_, _, transport_eq_unreachable hs hlost .stabilize _, rfl⟩

theorem kept_stabilize (hs : net.script = []) (hr : net.registry = []) (k : Nat) :
    Kept net (stabilize transport k net).2 := by
  unfold stabilize
  cases net.peerSuccessor? k with
  | none => exact .refl net
  | some s =>
    have hlost : net.find? s.endpoint = none := by rw [find?, hr]; rfl
    simp only
    rw [transport_eq_unreachable hs hlost]
    exact (quiet_ask net _ _ _).kept.trans
      (confined_dropSuccessor _ (List.mem_singleton_self k) s _).toKept

/-- A member whose peers are all gone. It knows three points, one of them under two endpoints. -/
def forsaken : Network where
  members := [{ self := ⟨.zero, "a"⟩, hopLimit := 4, joinThrough := none, fingersPerTick := 1
                table := .gappy }]

theorem rooted_forsaken : (forsaken.table 0).Rooted (forsaken.self 0) where
  finger_ne i hi := by
    have hmem := (Table.finger_eq_some_iff_mem _ _).1 ⟨i, hi⟩
    revert hmem
    decide +kernel
  unknown hs := by
    have hknown : (forsaken.table 0).successor? ≠ none := by decide +kernel
    exact absurd hs hknown

theorem drained_of_unanswered_forsaken :
    (∀ j, Unanswered transport 0 (stabilized (fun _ => transport) 0 forsaken j)) ∧
    ∃ lost, lost.length = 3 ∧ Drained (fun _ => transport) 0 forsaken lost := by
  have hkept : ∀ j, Kept forsaken (stabilized (fun _ => transport) 0 forsaken j) := by
    intro j
    induction j with
    | zero => exact .refl forsaken
    | succ j ih => exact ih.trans (kept_stabilize ih.script ih.registry 0)
  have hrun : ∀ j, Unanswered transport 0 (stabilized (fun _ => transport) 0 forsaken j) :=
    fun j => unanswered_transport (hkept j).script (hkept j).registry 0
  have hcard : (forsaken.table 0).points.card = 3 := by decide +kernel
  obtain ⟨lost, hlength, hlost⟩ := drained_of_unanswered (by decide) rooted_forsaken hrun
  exact ⟨hrun, lost, hlength.trans hcard, hlost⟩

end Network

end RingOverlay
