import RingOverlay.Proofs.Network.Lookup
import RingOverlay.Proofs.Ring.Ahead

/-!
# `Network.Fingers` — refreshing slots in a ring whose successors are right

Slot `i` is due to hold the first other member at least 2^(i-1) steps ahead; slot 0, the successor, is due
to hold the next member, which is the first one at least one step ahead. A refresh puts that member into
its slot and, by compaction, into lower slots that shared the entry it replaces.

What makes this safe is that no slot holds a member nearer than the slot reaches (`Spaced`). A lower slot
that shares the entry replaced, and holds what it is due, must then be due the same member, so it keeps
its entry. Slot 0 is one of these slots.

## Contents
- **Specification.** `due?`, `Spaced`.
- **One table.** `Reaching`, and `Reaching.finger_setFinger`: what is due stays.
- **One refresh.** `Routable.fixFinger_eq_ok`, `Ready`, `Ready.fixFinger`.
- **Many refreshes.** `fixEach`, `fixEach_due`.
-/

namespace RingOverlay.Network

open RingOverlay.Ring (owner? next? ahead?)

/-! ## Specification -/

/-- What slot `i` of a member is due to hold: the owner of the point 2^(i-1) ahead, unless that is the
    member itself. For slot 0 it is the point one step ahead. -/
def due? (net : Network) (ms : List Nat) (k i : Nat) : Option Node :=
  ((owner? net.point ms (net.point k + .ofNat (2 ^ (i - 1)))).filter (· ≠ k)).map net.self

/-- Every entry is at least as far ahead as its slot reaches. -/
def Spaced (net : Network) (ms : List Nat) : Prop :=
  ∀ k ∈ ms, ∀ i, 1 ≤ i → ∀ n, (net.table k).finger i = some n →
    2 ^ (i - 1) ≤ (net.point k).dist n.id

variable {net net' : Network} {ms : List Nat} {k : Nat}

theorem due?_eq (net : Network) (ms : List Nat) (k i : Nat) :
    due? net ms k i = (ahead? net.point ms k (2 ^ (i - 1))).map net.self := rfl

theorem pow_lt {i : Nat} (hi : i ≤ 255) : 2 ^ (i - 1) < 2 ^ 256 :=
  Nat.pow_lt_pow_right (by decide) (by omega)

/-! ## One table -/

/-- The slots of `k` hold other members, none nearer than its slot reaches. -/
def Reaching (net : Network) (ms : List Nat) (k : Nat) (t : Table) : Prop :=
  ∀ i n, t.finger i = some n →
    ∃ l ∈ ms, l ≠ k ∧ net.self l = n ∧ 2 ^ (i - 1) ≤ (net.point k).dist (net.point l)

section Reaching

variable {t : Table} {o : Nat}

theorem Reaching.setFinger (h : Reaching net ms k t) (i : Fin 256) (ho : o ∈ ms) (hne : o ≠ k)
    (hfar : 2 ^ (i.val - 1) ≤ (net.point k).dist (net.point o)) :
    Reaching net ms k (t.setFinger i (net.self o)) := by
  intro j n hn
  rw [Table.finger_setFinger] at hn
  split at hn
  · next hj =>
    rw [Option.some_inj] at hn
    have hji : j - 1 ≤ i.val - 1 := by omega
    exact ⟨o, ho, hne, hn, Nat.le_trans (Nat.pow_le_pow_right (by decide) hji) hfar⟩
  · exact h j n hn

theorem Reaching.clearFinger (h : Reaching net ms k t) (i : Fin 256) :
    Reaching net ms k (t.clearFinger i) := by
  intro j n hn
  rw [Table.finger_clearFinger] at hn
  split at hn
  · cases hn
  · exact h j n hn

theorem Reaching.setPredecessor (h : Reaching net ms k t) (n : Node) :
    Reaching net ms k (t.setPredecessor n) := h

theorem reaching_empty : Reaching net ms k .empty := by
  intro i n hn
  rw [Table.finger_empty] at hn
  cases hn

theorem spaced_of_reaching (h : ∀ k ∈ ms, Reaching net ms k (net.table k)) : Spaced net ms := by
  intro k hk i _ n hn
  obtain ⟨l, -, -, rfl, hfar⟩ := h k hk i n hn
  exact hfar

/-- A slot that holds what it is due goes on holding it when slot `i` takes the first member that is far
    enough for it. -/
theorem Reaching.finger_setFinger (h : Reaching net ms k t) (ho : Online net ms) (hk : k ∈ ms)
    {i : Fin 256} (hahead : ahead? net.point ms k (2 ^ (i.val - 1)) = some o) {j : Nat}
    (hdue : t.finger j = due? net ms k j) :
    (t.setFinger i (net.self o)).finger j = due? net ms k j := by
  rw [Table.finger_setFinger]
  split
  · next hj =>
    have hd := ho.distinct
    obtain ⟨hom, hfar, hmin⟩ := (Ring.ahead?_eq_some_iff hd hk (Nat.two_pow_pos _)
      (pow_lt (by omega))).1 hahead
    rcases hj with rfl | ⟨hlt, hshared⟩
    · rw [due?_eq, hahead, Option.map_some]
    · have hpow : 2 ^ (j - 1) ≤ 2 ^ (i.val - 1) := Nat.pow_le_pow_right (by decide) (by omega)
      rw [due?_eq] at hdue ⊢
      cases hx : ahead? net.point ms k (2 ^ (j - 1)) with
      | none =>
        -- nobody is far enough for slot `j`, so nobody is for slot `i`
        have hnone := (Ring.ahead?_eq_none_iff hd hk (Nat.two_pow_pos _) (pow_lt (by omega))).1 hx
        have hlt := hnone o hom
        omega
      | some x =>
        obtain ⟨hxm, hxfar, hxmin⟩ := (Ring.ahead?_eq_some_iff hd hk (Nat.two_pow_pos _)
          (pow_lt (by omega))).1 hx
        -- the entry replaced is `x`, which is far enough for slot `i` as well
        rw [hx, Option.map_some, hshared] at hdue
        obtain ⟨l, hlm, -, hl, hreach⟩ := h i _ hdue
        obtain rfl := ho.self_injective hlm hxm hl
        have h1 := hmin l hlm hreach
        have h2 := hxmin o hom (Nat.le_trans hpow hfar)
        rw [Option.map_some, RingId.dist_right_injective (Nat.le_antisymm h1 h2) |>
          hd.place_inj o hom l hlm]
  · exact hdue

end Reaching

/-! ## One refresh -/

section Refresh

variable {i : Fin 256}

/-- A refresh that is told an owner. -/
theorem fixFinger_eq {t : Transport} {id : RingId} {owner : Node}
    (hid : net.point k + fingerOffset (net.peerSuccessor? k).isSome i = id)
    (hl : lookup t k id 0 net = (.ok owner, net')) :
    fixFinger t k i.val net
      = (.ok (), if owner = net.self k then net'.clearFinger k i else net'.setFinger k i owner) := by
  unfold fixFinger
  rw [dif_pos i.isLt]
  simp only
  rw [show (net.self k).id + fingerOffset (net.peerSuccessor? k).isSome i = id from hid, hl]

/-- A refresh that is told nothing. -/
theorem fixFinger_of_error {t : Transport} {id : RingId} {fault : RingFault}
    (hid : net.point k + fingerOffset (net.peerSuccessor? k).isSome i = id)
    (hl : lookup t k id 0 net = (.error fault, net')) :
    fixFinger t k i.val net = (.error fault, net') := by
  unfold fixFinger
  rw [dif_pos i.isLt]
  simp only
  rw [show (net.self k).id + fingerOffset (net.peerSuccessor? k).isSome i = id from hid, hl]

/-- The point that a slot past the first one covers at a member with a successor. -/
theorem add_fingerOffset (hs : (net.peerSuccessor? k).isSome = true) (hi : 1 ≤ i.val) :
    net.point k + fingerOffset (net.peerSuccessor? k).isSome i
      = net.point k + .ofNat (2 ^ (i.val - 1)) := by
  have hne : ¬(i.val = 0 ∨ true = false) := by
    rintro (h0 | h0)
    · omega
    · cases h0
  rw [hs, fingerOffset, if_neg hne, RingId.pow2_eq_ofNat]

/-- In a routable ring a refresh always succeeds, and it is told the member that the slot is due to hold
    or, where there is none, the member itself. -/
theorem Routable.fixFinger_eq_ok (h : Routable net ms) (ho : Online net ms)
    (hlim : ∀ k ∈ ms, ms.length ≤ (net.member k).hopLimit.toNat) (hk : k ∈ ms) (hi : 1 ≤ i.val) :
    ∃ net', Quiet net net' ∧ fixFinger transport k i.val net
      = (.ok (), match ahead? net.point ms k (2 ^ (i.val - 1)) with
        | none => net'.clearFinger k i
        | some o => net'.setFinger k i (net.self o)) := by
  have hs := h.successor k hk
  cases hnext : next? net.point ms k with
  | none =>
    -- a lone member looks up the point next to it, and owns that and every other point
    obtain rfl := (Ring.next?_eq_none_iff hk).1 hnext
    rw [hnext, Option.map_none] at hs
    have hpeer := peerSuccessor?_of_none hs
    obtain ⟨o, net', hown, hlook, hasked⟩ := h.lookup_eq ho hlim hk (net.point k + .one)
    rw [Ring.owner?_singleton, Option.some_inj] at hown
    subst hown
    have hid : net.point k + fingerOffset (net.peerSuccessor? k).isSome i = net.point k + .one := by
      rw [hpeer, fingerOffset, Option.isSome_none, if_pos (.inr rfl)]
    have hnone : ahead? net.point [k] k (2 ^ (i.val - 1)) = none := by
      rw [ahead?, Ring.owner?_singleton, Option.filter_some, if_neg (by simp)]
    refine ⟨net', hasked.quiet, ?_⟩
    rw [fixFinger_eq hid hlook, if_pos rfl, hnone]
  | some s =>
    obtain ⟨hsm, hsk, -⟩ := (Ring.next?_eq_some_iff ho.distinct hk).1 hnext
    rw [hnext, Option.map_some] at hs
    have hpeer : net.peerSuccessor? k = some (net.self s) :=
      peerSuccessor?_of_some hs (ho.self_ne hsm hk hsk)
    have hid := add_fingerOffset (show (net.peerSuccessor? k).isSome = true by rw [hpeer]; rfl) hi
    obtain ⟨o, net', hown, hlook, hasked⟩ :=
      h.lookup_eq ho hlim hk (net.point k + .ofNat (2 ^ (i.val - 1)))
    have hom := ((Ring.owner?_eq_some_iff ho.distinct).1 hown).1
    refine ⟨net', hasked.quiet, ?_⟩
    rw [fixFinger_eq hid hlook, ahead?, hown, Option.filter_some]
    by_cases hok : o = k
    · subst hok
      rw [if_pos rfl, if_neg (by simp)]
    · rw [if_neg (ho.self_ne hom hk hok), if_pos (decide_eq_true hok)]

/-- A state in which lookups come to their owners and no slot holds a member nearer than it reaches. -/
structure Ready (net : Network) (ms : List Nat) : Prop where
  online : Online net ms
  limit : ∀ k ∈ ms, ms.length ≤ (net.member k).hopLimit.toNat
  successor : ∀ k ∈ ms, (net.table k).finger 0 = due? net ms k 0
  reaching : ∀ k ∈ ms, Reaching net ms k (net.table k)

theorem due?_of_kept (hk : Kept net net') : due? net' ms = due? net ms := by
  funext k i
  rw [due?_eq, due?_eq, hk.point, hk.self]

theorem Reaching.of_kept {t : Table} (h : Reaching net ms k t) (hk : Kept net net') :
    Reaching net' ms k t := by
  unfold Reaching
  rw [hk.point, hk.self]
  exact h

theorem due?_zero (ho : Online net ms) (hk : k ∈ ms) :
    due? net ms k 0 = (next? net.point ms k).map net.self := by
  rw [← Ring.ahead?_one ho.distinct hk]
  rfl

theorem Routable.ready (h : Routable net ms) (ho : Online net ms)
    (hlim : ∀ k ∈ ms, ms.length ≤ (net.member k).hopLimit.toNat) (hs : Spaced net ms) :
    Ready net ms where
  online := ho
  limit := hlim
  successor k hk := by
    rw [due?_zero ho hk]
    exact h.successor k hk
  reaching k hk := by
    intro i n hn
    obtain ⟨l, hl, hne, rfl⟩ := h.finger k hk i n hn
    refine ⟨l, hl, hne, rfl, ?_⟩
    rcases Nat.eq_zero_or_pos i with rfl | hi
    · exact RingId.dist_pos_iff.2 (Ring.place_ne ho.distinct hk hl hne)
    · exact hs k hk i hi _ hn

theorem Ready.routable (h : Ready net ms) : Routable net ms where
  successor k hk := by
    rw [← due?_zero h.online hk]
    exact h.successor k hk
  finger k hk i n hn := by
    obtain ⟨l, hl, hne, he, -⟩ := h.reaching k hk i n hn
    exact ⟨l, hl, hne, he⟩

theorem Ready.spaced (h : Ready net ms) : Spaced net ms := spaced_of_reaching h.reaching

/-- The slots that hold what they are due go on holding it. -/
def Lasting (ms : List Nat) (net net' : Network) : Prop :=
  ∀ k ∈ ms, ∀ j, (net.table k).finger j = due? net ms k j → (net'.table k).finger j = due? net' ms k j

/-- One table changes, and nothing that it is due to hold is lost. -/
theorem Ready.update (h : Ready net ms) (hk : k ∈ ms) (hkept : Kept net net') {t : Table}
    (ht : net'.table = Function.update net.table k t) (hr : Reaching net ms k t)
    (hdue : ∀ j, (net.table k).finger j = due? net ms k j → t.finger j = due? net ms k j) :
    Ready net' ms ∧ Lasting ms net net' := by
  have hlast : Lasting ms net net' := by
    intro l hl j hj
    rw [due?_of_kept hkept, ht]
    by_cases hlk : l = k
    · subst hlk
      rw [Function.update_self]
      exact hdue j hj
    · rw [Function.update_of_ne hlk]
      exact hj
  refine ⟨⟨h.online.of_kept hkept, ?_, ?_, ?_⟩, hlast⟩
  · intro l hl
    rw [hkept.hopLimit]
    exact h.limit l hl
  · intro l hl
    exact hlast l hl 0 (h.successor l hl)
  · intro l hl
    apply Reaching.of_kept _ hkept
    rw [ht]
    by_cases hlk : l = k
    · subst hlk
      rw [Function.update_self]
      exact hr
    · rw [Function.update_of_ne hlk]
      exact h.reaching l hl

/-- A refresh fills its slot with what it is due and spoils no other. -/
theorem Ready.fixFinger (h : Ready net ms) (hk : k ∈ ms) (hi : 1 ≤ i.val) :
    ∃ net', fixFinger transport k i.val net = (.ok (), net') ∧ Kept net net' ∧ Ready net' ms ∧
      Lasting ms net net' ∧ (net'.table k).finger i = due? net' ms k i := by
  obtain ⟨net₁, hq, hfix⟩ := h.routable.fixFinger_eq_ok h.online h.limit hk hi
  have hlen : k < net₁.members.length := hq.kept.length.symm ▸ h.online.lt_length hk
  cases hahead : ahead? net.point ms k (2 ^ (i.val - 1)) with
  | none =>
    rw [hahead] at hfix
    have hkept := hq.kept.trans (confined_clearFinger net₁ hk i).toKept
    have htable := table_clearFinger hlen i
    rw [hq.table] at htable
    obtain ⟨hready, hlast⟩ := h.update hk hkept htable ((h.reaching k hk).clearFinger i) (by
      intro j hj
      rw [Table.finger_clearFinger]
      split
      · next hji => rw [hji, due?_eq, hahead, Option.map_none]
      · exact hj)
    refine ⟨_, hfix, hkept, hready, hlast, ?_⟩
    rw [due?_of_kept hkept, htable, Function.update_self, Table.finger_clearFinger, if_pos rfl,
      due?_eq, hahead, Option.map_none]
  | some o =>
    rw [hahead] at hfix
    obtain ⟨hom, hfar, -⟩ := (Ring.ahead?_eq_some_iff h.online.distinct hk (Nat.two_pow_pos _)
      (pow_lt (by omega))).1 hahead
    have hok : o ≠ k := by
      rintro rfl
      rw [RingId.dist_self] at hfar
      exact absurd (Nat.two_pow_pos (i.val - 1)) (by omega)
    have hkept := hq.kept.trans (confined_setFinger net₁ hk i (net.self o)).toKept
    have htable := table_setFinger hlen i (net.self o)
    rw [hq.table] at htable
    obtain ⟨hready, hlast⟩ := h.update hk hkept htable
      ((h.reaching k hk).setFinger i hom hok hfar)
      (fun j hj => (h.reaching k hk).finger_setFinger h.online hk hahead hj)
    refine ⟨_, hfix, hkept, hready, hlast, ?_⟩
    rw [due?_of_kept hkept, htable, Function.update_self, Table.finger_setFinger_self, due?_eq,
      hahead, Option.map_some]

end Refresh

/-! ## Many refreshes -/

/-- Refreshes slots one after another, each given with its member. A fault ends the sequence. -/
def fixEach : List (Nat × Nat) → Attempt Unit
  | [], net => (.ok (), net)
  | (k, i) :: calls, net =>
    match fixFinger transport k i net with
    | (.error fault, net) => (.error fault, net)
    | (.ok _, net) => fixEach calls net

theorem Lasting.trans {net'' : Network} (h : Lasting ms net net') (h' : Lasting ms net' net'') :
    Lasting ms net net'' := by
  intro k hk j hj
  exact h' k hk j (h k hk j hj)

theorem Ready.fixEach (h : Ready net ms) {calls : List (Nat × Nat)}
    (hc : ∀ c ∈ calls, c.1 ∈ ms ∧ 1 ≤ c.2 ∧ c.2 ≤ 255) :
    ∃ net', fixEach calls net = (.ok (), net') ∧ Kept net net' ∧ Ready net' ms ∧
      Lasting ms net net' ∧ ∀ c ∈ calls, (net'.table c.1).finger c.2 = due? net' ms c.1 c.2 := by
  induction calls generalizing net with
  | nil => exact ⟨net, rfl, .refl net, h, fun k hk j hj => hj, fun c hc => absurd hc List.not_mem_nil⟩
  | cons c calls ih =>
    obtain ⟨⟨hk, hi, hi'⟩, hc⟩ := List.forall_mem_cons.1 hc
    obtain ⟨net₁, hfix, hkept₁, hready₁, hlast₁, hdue₁⟩ :=
      h.fixFinger hk (i := ⟨c.2, Nat.lt_succ_of_le hi'⟩) hi
    obtain ⟨net₂, hrest, hkept₂, hready₂, hlast₂, hdue₂⟩ := ih hready₁ hc
    refine ⟨net₂, ?_, hkept₁.trans hkept₂, hready₂, hlast₁.trans hlast₂, ?_⟩
    · unfold Network.fixEach
      rw [hfix]
      exact hrest
    · -- the slot refreshed first is spoilt by none of the refreshes that follow
      exact List.forall_mem_cons.2 ⟨hlast₂ _ hk _ hdue₁, hdue₂⟩

/-- Refreshes of any slots past the first one at any members, in any order, all succeed in a routable ring
    in which no slot holds a member nearer than it reaches. They change no successor, leave every slot
    holding members that are far enough, and a member all of whose slots were refreshed has every slot
    holding what it is due. -/
theorem fixEach_due (ho : Online net ms) (h : Routable net ms)
    (hlim : ∀ k ∈ ms, ms.length ≤ (net.member k).hopLimit.toNat) (hs : Spaced net ms)
    {calls : List (Nat × Nat)} (hc : ∀ c ∈ calls, c.1 ∈ ms ∧ 1 ≤ c.2 ∧ c.2 ≤ 255) :
    ∃ net', fixEach calls net = (.ok (), net') ∧ Kept net net' ∧
      (∀ k ∈ ms, (net'.table k).successor? = (net.table k).successor?) ∧
      Routable net' ms ∧ Spaced net' ms ∧
      ∀ k ∈ ms, (∀ i, 1 ≤ i → i ≤ 255 → (k, i) ∈ calls) →
        ∀ i, 1 ≤ i → i ≤ 255 → (net'.table k).finger i = due? net ms k i := by
  have hready := h.ready ho hlim hs
  obtain ⟨net', hfix, hkept, hready', -, hdue⟩ := hready.fixEach hc
  rw [due?_of_kept hkept] at hdue
  refine ⟨net', hfix, hkept, ?_, hready'.routable, hready'.spaced, ?_⟩
  · intro k hk
    show (net'.table k).finger 0 = (net.table k).finger 0
    rw [hready'.successor k hk, hready.successor k hk, due?_of_kept hkept]
  · intro k hk hall i hi hi'
    exact hdue (k, i) (hall i hi hi')

theorem spaced_trio : Spaced trio [0, 1, 2] := by
  have ha : trio.table 0 = ((Table.empty.setFinger 9 (trio.self 2)).setFinger Table.successorSlot
      (trio.self 1)).setPredecessor (trio.self 2) := rfl
  have hb : trio.table 1 = (Table.empty.setFinger Table.successorSlot (trio.self 2)).setPredecessor
      (trio.self 0) := rfl
  have hc : trio.table 2 = (Table.empty.setFinger Table.successorSlot (trio.self 0)).setPredecessor
      (trio.self 1) := rfl
  apply spaced_of_reaching
  intro k hk
  simp only [List.mem_cons, List.not_mem_nil, or_false] at hk
  rcases hk with rfl | rfl | rfl
  · rw [ha]
    exact ((reaching_empty.setFinger 9 (by decide) (by decide) (by decide)).setFinger
      Table.successorSlot (by decide) (by decide) (by decide)).setPredecessor _
  · rw [hb]
    exact (reaching_empty.setFinger Table.successorSlot (by decide) (by decide)
      (by decide)).setPredecessor _
  · rw [hc]
    exact (reaching_empty.setFinger Table.successorSlot (by decide) (by decide)
      (by decide)).setPredecessor _

/-- All slots of the first of three members are refreshed, the highest first, and one of them again after
    a refresh at another member. -/
theorem fixEach_due_trio :
    ∃ net', fixEach ((List.range 255).map (fun i => (0, 255 - i)) ++ [(1, 3), (0, 9)]) trio
        = (.ok (), net') ∧ Kept trio net' ∧
      (∀ k ∈ [0, 1, 2], (net'.table k).successor? = (trio.table k).successor?) ∧
      Routable net' [0, 1, 2] ∧ Spaced net' [0, 1, 2] ∧
      ∀ i, 1 ≤ i → i ≤ 255 → (net'.table 0).finger i = due? trio [0, 1, 2] 0 i := by
  have hcalls : ∀ c ∈ (List.range 255).map (fun i => (0, 255 - i)) ++ [(1, 3), (0, 9)],
      c.1 ∈ [0, 1, 2] ∧ 1 ≤ c.2 ∧ c.2 ≤ 255 := by
    intro c hc
    rcases List.mem_append.1 hc with hc | hc
    · obtain ⟨i, hi, rfl⟩ := List.mem_map.1 hc
      rw [List.mem_range] at hi
      exact ⟨List.mem_cons_self .., by simp only; omega, by simp only; omega⟩
    · simp only [List.mem_cons, List.not_mem_nil, or_false] at hc
      rcases hc with rfl | rfl <;> decide
  have hall : ∀ i, 1 ≤ i → i ≤ 255 →
      (0, i) ∈ (List.range 255).map (fun i => (0, 255 - i)) ++ [(1, 3), (0, 9)] := by
    intro i hi hi'
    rw [List.mem_append, List.mem_map]
    exact .inl ⟨255 - i, List.mem_range.2 (by omega), by rw [Nat.sub_sub_self hi']⟩
  obtain ⟨net', hfix, hkept, hsucc, hroute, hspaced, hdue⟩ :=
    fixEach_due (online_trio.sublist (List.sublist_cons_self 3 [0, 1, 2]))
      consistent_trio.toRoutable (by decide) spaced_trio hcalls
  exact ⟨net', hfix, hkept, hsucc, hroute, hspaced, hdue 0 (by decide) hall⟩

end RingOverlay.Network
