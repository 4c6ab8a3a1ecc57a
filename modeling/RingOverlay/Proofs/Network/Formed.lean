import RingOverlay.Proofs.Network.Admission

/-!
# `Network.Formed` — rings that form without failures

A ring forms from one member that makes a ring of its own. Nodes come up, enter through any member, and
members run their rounds, in any order. `Formed` is every state that is reached so. The members may know
neighbours that are out of date, but their links stay sound: successors lead from every member to the
founder, clockwise and at most once round.

## Contents
- **Arrival.** `Online.arrive`, a node that comes up disturbs no member.
- **Runs.** `Fresh`, `Formed`.
- **A lone founder.** `Lone`, kept by its rounds.
- **The invariant.** `Shape`, and `Formed.shape` by one case for each step.
- **An instance.** `crowd₃`, three members of which one is no member's successor.
- **Safety.** `Formed.single_cycle`.
- **Convergence.** `Formed.converges`.
-/

namespace RingOverlay.Network

open RingOverlay.Ring (Links)
open RingOverlay.Ring.Links (Sound)

variable {net net' : Network} {ms : List Nat} {b k : Nat} {m : Member} {L : Links}

/-! ## Arrival -/

/-- The members that were there are as they were. -/
theorem member_arrive (hk : k < net.members.length) :
    ((net.add m).register net.members.length).member k = net.member k := by
  show ((net.members ++ [m])[k]?).getD default = _
  rw [List.getElem?_append_left hk]
  rfl

/-- Every endpoint but the one taken still leads to its member. -/
theorem find?_arrive {e : String} (he : e ≠ m.self.endpoint) (hf : net.find? e = some k) :
    ((net.add m).register net.members.length).find? e = some k := by
  rw [find?, Option.filter_eq_some_iff] at hf ⊢
  obtain ⟨hlook, halive⟩ := hf
  have hself : ((net.add m).member net.members.length).self.endpoint = m.self.endpoint := by
    show (((net.members ++ [m])[net.members.length]?).getD default).self.endpoint = _
    rw [List.getElem?_concat_length]
    rfl
  have hbeq : (e == m.self.endpoint) = false := beq_false_of_ne he
  constructor
  · unfold register
    simp only [hself]
    rw [List.lookup_cons, hbeq]
    exact (lookup_filter_ne he _).trans hlook
  · obtain ⟨n, hn, -⟩ := (Option.any_eq_true ..).1 halive
    have hk := (List.getElem?_eq_some_iff.1 hn).1
    show (((net.members ++ [m])[k]?).any (·.alive)) = true
    rw [List.getElem?_append_left hk]
    exact halive

/-- A node that comes up at an endpoint of its own disturbs no member. -/
theorem Online.arrive (h : Online net ms) (hm : ∀ k ∈ ms, (net.self k).endpoint ≠ m.self.endpoint) :
    Online ((net.add m).register net.members.length) ms := by
  have hself : ∀ k ∈ ms, ((net.add m).register net.members.length).self k = net.self k := by
    intro k hk
    exact congrArg Member.self (member_arrive (h.lt_length hk))
  constructor
  · exact h.script
  · exact h.distinct.congr fun k hk => congrArg Node.id (hself k hk)
  · intro k hk
    rw [hself k hk]
    exact find?_arrive (hm k hk) (h.answers k hk)
  · intro k hk
    rw [hself k hk]
    exact h.address k hk

/-! ## Runs -/

/-- A node with a point and an endpoint that no member has, which knows nobody. -/
structure Fresh (net : Network) (ms : List Nat) (k : Nat) : Prop where
  table : net.table k = .empty
  answers : net.find? (net.self k).endpoint = some k
  address : (net.self k).endpoint ≠ ""
  point : ∀ l ∈ ms, net.point l ≠ net.point k

/-- The networks that form from a founder `b` without failures, each with its members. A node that comes
    up is no member before it has entered. Every step is finished before the next. -/
inductive Formed (b : Nat) : Network → List Nat → Prop where
  /-- A node that joins through nobody makes a ring of its own. -/
  | found {net : Network} : Online net [b] → (net.member b).joinThrough = none →
      Formed b (net.bootstrap b) [b]
  /-- A node comes up at an endpoint that no member has. -/
  | arrive {net : Network} {ms : List Nat} {m : Member} : Formed b net ms →
      (∀ k ∈ ms, (net.self k).endpoint ≠ m.self.endpoint) →
      Formed b ((net.add m).register net.members.length) ms
  /-- A fresh node enters through a member. -/
  | entered {net net' : Network} {ms : List Nat} {k l : Nat} : Formed b net ms → Fresh net ms k →
      l ∈ ms → enter transport k (net.self l).endpoint net = (.ok (), net') →
      Formed b net' (k :: ms)
  /-- A fresh node tries to enter through a member, and fails. -/
  | refused {net net' : Network} {ms : List Nat} {k l : Nat} {fault : RingFault} :
      Formed b net ms → Fresh net ms k → l ∈ ms →
      enter transport k (net.self l).endpoint net = (.error fault, net') → Formed b net' ms
  /-- A member runs a round of stabilizing. -/
  | stabilized {net : Network} {ms : List Nat} {k : Nat} : Formed b net ms → k ∈ ms →
      Formed b (stabilizeRound transport k net) ms
  /-- A member checks its predecessor. -/
  | checked {net : Network} {ms : List Nat} {k : Nat} : Formed b net ms → k ∈ ms →
      Formed b (checkRound transport k net) ms

/-- A fresh node is online beside the members. -/
theorem Fresh.online (h : Fresh net ms k) (ho : Online net ms) : Online net (k :: ms) where
  script := ho.script
  distinct := by
    have hk : k ∉ ms := fun hk => h.point k hk rfl
    refine ⟨List.nodup_cons.2 ⟨hk, ho.distinct.nodup⟩, ?_⟩
    intro i hi j hj he
    rcases List.mem_cons.1 hi with rfl | him <;> rcases List.mem_cons.1 hj with rfl | hjm
    · rfl
    · exact absurd he.symm (h.point j hjm)
    · exact absurd he (h.point i him)
    · exact ho.distinct.place_inj i him j hjm he
  answers := List.forall_mem_cons.2 ⟨h.answers, ho.answers⟩
  address := List.forall_mem_cons.2 ⟨h.address, ho.address⟩

/-! ## A lone founder -/

/-- A member that is alone, knows nobody and joins through nobody. -/
structure Lone (net : Network) (b : Nat) : Prop where
  online : Online net [b]
  table : net.table b = .empty
  joinThrough : (net.member b).joinThrough = none

theorem Lone.of_kept (h : Lone net b) (hk : Kept net net') (ht : net'.table = net.table) :
    Lone net' b where
  online := h.online.of_kept hk
  table := by rw [ht, h.table]
  joinThrough := by rw [hk.joinThrough, h.joinThrough]

theorem Lone.arrive (h : Lone net b) (hm : ∀ k ∈ [b], (net.self k).endpoint ≠ m.self.endpoint) :
    Lone ((net.add m).register net.members.length) b := by
  have hb := member_arrive (m := m) (h.online.lt_length (List.mem_singleton_self b))
  exact ⟨h.online.arrive hm, (congrArg Member.table hb).trans h.table,
    (congrArg Member.joinThrough hb).trans h.joinThrough⟩

theorem Lone.stabilizeRound (h : Lone net b) : Lone (stabilizeRound transport b net) b := by
  have hnone : (net.table b).successor? = none := by
    rw [h.table]
    exact Table.finger_empty 0
  obtain ⟨hkept, htable⟩ := stabilizeRound_lone hnone h.joinThrough
  exact h.of_kept hkept htable

theorem Lone.checkRound (h : Lone net b) : Lone (checkRound transport b net) b := by
  have hnone : net.predecessor? b = none := by
    rw [predecessor?, h.table]
    rfl
  rw [checkRound_lone hnone]
  exact h

/-- A node that makes a ring of its own. -/
theorem lone_bootstrap (ho : Online net [b]) (hthrough : (net.member b).joinThrough = none) :
    Lone (net.bootstrap b) b := by
  have hkept := (confined_bootstrap net (List.mem_singleton_self b)).toKept
  refine ⟨ho.of_kept hkept, ?_, ?_⟩
  · rw [table_bootstrap (ho.lt_length (List.mem_singleton_self b)), Function.update_self]
  · rw [hkept.joinThrough, hthrough]

/-- The first newcomer and the founder. -/
theorem Lone.enter (h : Lone net b) (hf : Fresh net [b] k) :
    ∃ net', enter transport k (net.self b).endpoint net = (.ok (), net') ∧ ∃ L,
      SoundRing net' [k, b] b L := by
  obtain ⟨net', he, -, hring⟩ := enter_lone (hf.online h.online) hf.table (consistent_singleton h.table)
  exact ⟨net', he, _, hring⟩

/-! ## The invariant -/

theorem LooseRing.arrive (h : LooseRing net ms L)
    (hm : ∀ k ∈ ms, (net.self k).endpoint ≠ m.self.endpoint) :
    LooseRing ((net.add m).register net.members.length) ms L where
  online := h.online.arrive hm
  linked := h.linked.of_member (fun k hk => ⟨(h.loose.succ k hk).1, (h.loose.pred k hk).1⟩)
    fun _ hk => member_arrive (h.online.lt_length hk)
  loose := h.loose

theorem SoundRing.arrive (h : SoundRing net ms b L)
    (hm : ∀ k ∈ ms, (net.self k).endpoint ≠ m.self.endpoint) :
    SoundRing ((net.add m).register net.members.length) ms b L := by
  have hring := h.loose.arrive hm
  refine ⟨hring.online, hring.linked, h.sound.congr ?_⟩
  intro k hk
  exact congrArg (fun n : Member => n.self.id) (member_arrive (h.online.lt_length hk))

/-- A founder that is alone, or members with sound links. -/
inductive Shape (b : Nat) (net : Network) : List Nat → Prop where
  | lone : Lone net b → Shape b net [b]
  | ring {ms : List Nat} {L : Links} : SoundRing net ms b L → Shape b net ms

theorem Shape.arrive (h : Shape b net ms) (hm : ∀ k ∈ ms, (net.self k).endpoint ≠ m.self.endpoint) :
    Shape b ((net.add m).register net.members.length) ms := by
  cases h with
  | lone hlone => exact .lone (hlone.arrive hm)
  | ring hring => exact .ring (hring.arrive hm)

theorem Shape.enter (h : Shape b net ms) (hf : Fresh net ms k) {l : Nat} (hl : l ∈ ms) :
    (∃ net', enter transport k (net.self l).endpoint net = (.ok (), net') ∧
      Shape b net' (k :: ms)) ∨
    (∃ fault net', enter transport k (net.self l).endpoint net = (.error fault, net') ∧
      Shape b net' ms) := by
  cases h with
  | lone hlone =>
    rw [List.mem_singleton] at hl
    subst hl
    obtain ⟨net', he, L, hring⟩ := hlone.enter hf
    exact .inl ⟨net', he, .ring hring⟩
  | ring hring =>
    rcases hring.enter_cases (hf.online hring.online) hf.table hl with
      ⟨fault, net', he, hq⟩ | ⟨L', net', -, he, -, hring'⟩
    · exact .inr ⟨fault, net', he, .ring (hring.of_quiet hq)⟩
    · exact .inl ⟨net', he, .ring hring'⟩

theorem Shape.stabilizeRound (h : Shape b net ms) (hk : k ∈ ms) :
    Shape b (stabilizeRound transport k net) ms := by
  cases h with
  | lone hlone =>
    rw [List.mem_singleton] at hk
    subst hk
    exact .lone hlone.stabilizeRound
  | ring hring => exact .ring (hring.stabilizeRound hk).2

theorem Shape.checkRound (h : Shape b net ms) (hk : k ∈ ms) :
    Shape b (checkRound transport k net) ms := by
  cases h with
  | lone hlone =>
    rw [List.mem_singleton] at hk
    subst hk
    exact .lone hlone.checkRound
  | ring hring => exact .ring (hring.of_quiet (hring.loose.checkRound hk))

/-- In every state that is reached the members answer, and their links are sound. -/
theorem Formed.shape (h : Formed b net ms) : Shape b net ms := by
  -- one case for each step: what the step leaves behind has the shape again
  induction h with
  | found ho hthrough => exact .lone (lone_bootstrap ho hthrough)
  | arrive _ hm ih => exact ih.arrive hm
  | entered _ hf hl he ih =>
    rcases ih.enter hf hl with ⟨net', he', hshape⟩ | ⟨fault, net', he', -⟩
    · rw [he, Prod.mk.injEq] at he'
      obtain ⟨-, rfl⟩ := he'
      exact hshape
    · rw [he] at he'
      cases he'
  | refused _ hf hl he ih =>
    rcases ih.enter hf hl with ⟨net', he', -⟩ | ⟨fault, net', he', hshape⟩
    · rw [he] at he'
      cases he'
    · rw [he, Prod.mk.injEq] at he'
      obtain ⟨-, rfl⟩ := he'
      exact hshape
  | stabilized _ hk ih => exact ih.stabilizeRound hk
  | checked _ hk ih => exact ih.checkRound hk

/-- With more members than the founder there are links. -/
theorem Formed.ring (h : Formed b net ms) (hn : 2 ≤ ms.length) : ∃ L, SoundRing net ms b L := by
  cases h.shape with
  | lone => exact absurd hn (by rw [List.length_singleton]; decide)
  | @ring _ L hring => exact ⟨L, hring⟩

/-! ## An instance -/

/-- A node that comes up at a point and an endpoint of its own. -/
def peer (id : Nat) (endpoint : String) : Member where
  self := ⟨.ofNat id, endpoint⟩
  hopLimit := 8
  joinThrough := none
  fingersPerTick := 1

/-- A network with one node more, which has not joined. -/
def comeUp (net : Network) (m : Member) : Network := (net.add m).register net.members.length

/-- A founder, and the first newcomer before it has joined. -/
def crowd₁ : Network :=
  comeUp (bootstrap { members := [peer 100 "f"], registry := [("f", 0)] } 0) (peer 200 "x")

/-- The first newcomer has joined, the second has not. -/
def crowd₂ : Network := comeUp (enter transport 1 "f" crowd₁).2 (peer 300 "k")

/-- The second newcomer has joined, the third has not. -/
def crowd₃ : Network := comeUp (enter transport 2 "f" crowd₂).2 (peer 0 "j")

/-- A fresh node has entered through an endpoint of a member. -/
theorem Formed.enter {l : Nat} {through : String} (h : Formed b net ms) (hf : Fresh net ms k)
    (hl : l ∈ ms) (hthrough : (net.self l).endpoint = through)
    (hok : (enter transport k through net).1 = .ok ()) :
    Formed b (enter transport k through net).2 (k :: ms) := by
  refine .entered h hf hl ?_
  rw [hthrough]
  exact Prod.ext hok rfl

theorem formed_crowd₃ : Formed 0 crowd₃ [2, 1, 0] := by
  have h₁ : Formed 0 crowd₁ [0] :=
    .arrive (.found ⟨rfl, ⟨by decide, by decide⟩, by decide, by decide⟩ rfl) (by decide)
  have h₂ : Formed 0 crowd₂ [1, 0] := by
    have hfresh : Fresh crowd₁ [0] 1 := ⟨rfl, by decide, by decide, by decide⟩
    exact .arrive (h₁.enter (l := 0) hfresh (by decide) (by decide +kernel) (by decide +kernel))
      (by decide +kernel)
  have hfresh : Fresh crowd₂ [1, 0] 2 :=
    ⟨by decide +kernel, by decide +kernel, by decide +kernel, by decide +kernel⟩
  exact .arrive (h₂.enter (l := 0) hfresh (by decide) (by decide +kernel) (by decide +kernel))
    (by decide +kernel)

/-! ## Safety -/

/-- Following successors from any member reaches the founder within as many steps as there are members,
    and the clockwise distance from the founder grows with each step before. So the members on a cycle are
    those that are reached from the founder: one cycle, once round the ring. -/
theorem Formed.single_cycle (h : Formed b net ms) (hn : 2 ≤ ms.length) :
    ∃ next : Nat → Nat,
      (∀ k ∈ ms, next k ∈ ms ∧ next k ≠ k ∧
        (net.table k).successor? = some (net.self (next k))) ∧
      (∀ k ∈ ms, ∃ p ∈ ms, p ≠ k ∧ net.predecessor? k = some (net.self p)) ∧
      (∀ k ∈ ms, ∃ i, i < ms.length ∧ next^[i + 1] k = b ∧ ∀ j < i,
        (net.point b).dist (net.point (next^[j] k))
          < (net.point b).dist (net.point (next^[j + 1] k))) ∧
      ∀ k ∈ ms, (∃ i, next^[i + 1] k = k) ↔ ∃ j, next^[j] b = k := by
  obtain ⟨L, ho, hl, hs⟩ := h.ring hn
  refine ⟨L.succ, ?_, ?_, ?_, ?_⟩
  · intro k hk
    obtain ⟨hm, hne, -⟩ := hs.succ k hk
    exact ⟨hm, hne.symm, (hl k hk).successor⟩
  · intro k hk
    obtain ⟨hm, hne, -⟩ := hs.pred k hk
    exact ⟨L.pred k, hm, hne, (hl k hk).predecessor⟩
  · intro k hk
    exact hs.walk ho.distinct hk
  · intro k hk
    exact hs.on_cycle_iff ho.distinct hk

/-- Three members, one of which is no member's successor. -/
theorem single_cycle_crowd : Formed 0 crowd₃ [2, 1, 0] ∧ 2 ≤ [2, 1, 0].length ∧
    (∀ k ∈ [2, 1, 0], (crowd₃.table k).successor? ≠ some (crowd₃.self 2)) ∧
    ∃ next : Nat → Nat,
      (∀ k ∈ [2, 1, 0], next k ∈ [2, 1, 0] ∧ next k ≠ k ∧
        (crowd₃.table k).successor? = some (crowd₃.self (next k))) ∧
      (∀ k ∈ [2, 1, 0], ∃ p ∈ [2, 1, 0], p ≠ k ∧ crowd₃.predecessor? k = some (crowd₃.self p)) ∧
      (∀ k ∈ [2, 1, 0], ∃ i, i < 3 ∧ next^[i + 1] k = 0 ∧ ∀ j < i,
        (crowd₃.point 0).dist (crowd₃.point (next^[j] k))
          < (crowd₃.point 0).dist (crowd₃.point (next^[j + 1] k))) ∧
      ∀ k ∈ [2, 1, 0], (∃ i, next^[i + 1] k = k) ↔ ∃ j, next^[j] 0 = k :=
  ⟨formed_crowd₃, by decide, by decide +kernel, formed_crowd₃.single_cycle (by decide)⟩

/-! ## Convergence -/

/-- Rounds of all members, each round in its own order, lead to the ring as it should be. -/
theorem Formed.converges (h : Formed b net ms) (hn : 2 ≤ ms.length) {rounds : List (List Nat)}
    (hlen : 2 * ms.length * ms.length ≤ rounds.length) (hr : ∀ order ∈ rounds, order.Perm ms) :
    Consistent (rounds.foldl (fun net order => stabilizeEach order net) net) ms := by
  obtain ⟨L, hring⟩ := h.ring hn
  have hd := hring.online.distinct
  -- every round that changes the links lowers their excess, and there are more rounds than excess
  have hexcess : Links.excess net.point ms L < 2 * ms.length * ms.length :=
    Links.excess_lt (Nat.lt_of_lt_of_le Nat.two_pos hn)
  obtain ⟨hs', hm⟩ := hring.sound.rounds hd hr (Nat.lt_of_lt_of_le hexcess hlen)
  obtain ⟨hkept, hring'⟩ := hring.foldl_stabilizeEach fun order ho => (hr order ho).subset
  apply hring'.linked.consistent
  rw [hkept.point]
  exact hs'.exact hd hm

/-- Eighteen rounds of the three members, every other one the other way round. The first newcomer begins with a
    successor that is not the next member. -/
theorem converges_crowd : Formed 0 crowd₃ [2, 1, 0] ∧
    (crowd₃.table 1).successor? ≠ some (crowd₃.self 2) ∧
    Consistent ((List.replicate 9 [[0, 1, 2], [2, 1, 0]]).flatten.foldl
      (fun net order => stabilizeEach order net) crowd₃) [2, 1, 0] :=
  ⟨formed_crowd₃, by decide +kernel,
    formed_crowd₃.converges (by decide) (by decide) (by decide)⟩

end RingOverlay.Network
