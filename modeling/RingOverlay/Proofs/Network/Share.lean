import RingOverlay.Proofs.Network.Handover
import RingOverlay.Proofs.Network.Join
import RingOverlay.Proofs.Network.Lookup

/-!
# `Network.Share` — a newcomer's share of the ring

In a ring as it should be a newcomer comes between two members. The points from the first of them up to
the newcomer become the newcomer's; they were the second one's. The second one announces that, once:
its announcements are a trail of predecessors from the first member to the newcomer, and no member lies
between. The trail of every other member ends where it starts, so it is empty.

## Contents
- **Announcements.** `told_of_heralds`.
- **Owners.** `Routable.exists_owner`, `owner_ne_iff`.
- **The share.** `enter_handover`.
-/

namespace RingOverlay.Network

open RingOverlay.Ring (owner? next? prev?)
open RingEvent (isHandover)

variable {net net' : Network} {ms : List Nat} {k m : Nat}

/-! ## Announcements -/

/-- Between the newcomer's two neighbours only the newcomer is closer to the second than the first. -/
theorem eq_newcomer_of_closer (ho : Online net (k :: ms)) (hc : Consistent net ms) {s : Nat}
    (hs : s ∈ ms) {x : Node} (hx : ∃ j ∈ k :: ms, x = net.self j) (hxs : x.id ≠ (net.self s).id)
    (hcloser : closerPredecessor (net.self s) (net.predecessor? s) x = true) : x = net.self k := by
  obtain ⟨j, hj, rfl⟩ := hx
  rcases List.mem_cons.1 hj with rfl | hj
  · rfl
  exfalso
  have hd := ho.distinct.sublist (List.sublist_cons_self k ms)
  rw [hc.predecessor s hs] at hcloser
  cases hq : prev? net.point ms s with
  | none =>
    rw [(Ring.prev?_eq_none_iff hs).1 hq, List.mem_singleton] at hj
    exact hxs (by rw [hj])
  | some q =>
    rw [hq] at hcloser
    exact ((Ring.prev?_eq_some_iff hd hs).1 hq).2.2 j hj hcloser

/-- The announcements of each member when a newcomer has entered a ring as it should be and every old
    member has run a round: none but at the member after the newcomer. -/
theorem told_of_heralds (ho : Online net (k :: ms)) (hc : Consistent net ms)
    (hc' : Consistent net' (k :: ms)) (hconf : Confined (k :: ms) net net') {s : Nat}
    (hs : next? net.point (k :: ms) k = some s)
    (hk : net'.told isHandover k = net.told isHandover k)
    (hh : ∀ i, i ≠ k → Heralds (fun n => ∃ j ∈ k :: ms, n = net.self j) i net net') (i : Nat) :
    net'.told isHandover i
      = (if i = s then [.predecessorChanged (net.predecessor? s) (net.self k)] else [])
        ++ net.told isHandover i := by
  have hd := ho.distinct
  have hkm : k ∈ k :: ms := List.mem_cons_self ..
  obtain ⟨hsm, hsk, -⟩ := (Ring.next?_eq_some_iff hd hkm).1 hs
  have hsms := List.mem_of_ne_of_mem hsk hsm
  by_cases hik : i = k
  · rw [hik, if_neg (Ne.symm hsk), hk]
    rfl
  by_cases him : i ∈ ms
  · obtain ⟨-, es, htold, htrail⟩ := hh i hik
    have hend := hc'.predecessor i (List.mem_cons_of_mem k him)
    rw [hconf.point, hconf.self] at hend
    rw [htold]
    by_cases his : i = s
    · subst his
      rw [(Ring.prev?_eq_some_iff_next? hd hkm hsm).2 hs, Option.map_some] at hend
      rw [hend] at htrail
      rw [if_pos rfl, htrail.eq_singleton ?_ fun x => eq_newcomer_of_closer ho hc him]
      -- the predecessor before is an old member
      rw [hc.predecessor i him]
      intro he
      obtain ⟨q, hq, hqk⟩ := Option.map_eq_some_iff.1 he
      have hqm := ((Ring.prev?_eq_some_iff (hd.sublist (List.sublist_cons_self k ms)) him).1 hq).1
      rw [ho.self_injective (List.mem_cons_of_mem k hqm) hkm hqk] at hqm
      exact (List.nodup_cons.1 hd.nodup).1 hqm
    · rw [Ring.prev?_cons_of_ne hd hs him his, ← hc.predecessor i him] at hend
      rw [hend] at htrail
      rw [if_neg his, htrail.eq_nil]
  · have hout : i ∉ k :: ms := fun hi => him (List.mem_of_ne_of_mem hik hi)
    have his : i ≠ s := by
      rintro rfl
      exact him hsms
    rw [if_neg his, told, hconf.member i hout]
    rfl

/-! ## Owners -/

/-- All lookups of a point come to its owner. -/
theorem Routable.exists_owner (h : Routable net ms) (ho : Online net ms)
    (hlim : ∀ k ∈ ms, ms.length ≤ (net.member k).hopLimit.toNat) (hm : m ∈ ms) (id : RingId) :
    ∃ o, owner? net.point ms id = some o ∧
      ∀ j ∈ ms, ∃ net', lookup transport j id 0 net = (.ok (net.self o), net') := by
  obtain ⟨o, -, hown, -, -⟩ := h.lookup_eq ho hlim hm id
  refine ⟨o, hown, ?_⟩
  intro j hj
  obtain ⟨o', net', hown', hlook, -⟩ := h.lookup_eq ho hlim hj id
  rw [hown, Option.some_inj] at hown'
  exact ⟨net', hown' ▸ hlook⟩

/-- With the newcomer `k` between the members `p` and `s` the points on the arc from `p` to `k` change
    their owner, from `s` to `k`, and no others do. -/
theorem owner_ne_iff (ho : Online net (k :: ms)) {s p o o' : Nat} {id : RingId}
    (hs : next? net.point (k :: ms) k = some s) (hp : prev? net.point (k :: ms) k = some p)
    (hown : owner? net.point ms id = some o) (hown' : owner? net.point (k :: ms) id = some o') :
    (net.self o ≠ net.self o' ↔ id.betweenIncl (net.point p) (net.point k) = true) ∧
      (net.self o ≠ net.self o' → net.self o = net.self s ∧ net.self o' = net.self k) := by
  have hd := ho.distinct
  have hkm : k ∈ k :: ms := List.mem_cons_self ..
  have hom := ((Ring.owner?_eq_some_iff (hd.sublist (List.sublist_cons_self k ms))).1 hown).1
  rw [← Ring.owner?_eq_some_iff_betweenIncl hd hkm hp, hown', Option.some_inj]
  by_cases hok : o' = k
  · subst hok
    have hne : o ≠ o' := by
      rintro rfl
      exact (List.nodup_cons.1 hd.nodup).1 hom
    have hself := ho.self_ne (List.mem_cons_of_mem o' hom) hkm hne
    rw [Ring.owner?_of_newcomer hd hs hown', Option.some_inj] at hown
    exact ⟨⟨fun _ => rfl, fun _ => hself⟩, fun _ => ⟨by rw [hown], rfl⟩⟩
  · rw [Ring.owner?_of_owner?_cons hd hok hown', Option.some_inj] at hown
    subst hown
    exact ⟨⟨fun h => absurd rfl h, fun h => absurd h hok⟩, fun h => absurd rfl h⟩

/-! ## The share -/

/-- A newcomer enters a ring as it should be, and every old member runs a round. Then the member `s` after
    the newcomer has announced, once, that its predecessor changed to the newcomer from the member `p`
    before it, or from nobody where `s` was alone, and no other member has announced a change. The
    lookups that came to another member before are those for the points between `p` and the newcomer:
    they came to `s` and come to the newcomer. -/
theorem enter_handover (ho : Online net (k :: ms)) (hc : Consistent net ms)
    (hlim : ∀ j ∈ k :: ms, ms.length < (net.member j).hopLimit.toNat) (hempty : net.table k = .empty)
    (hm : m ∈ ms) {order : List Nat} (horder : order.Perm ms) :
    ∃ net₁ s p, enter transport k (net.self m).endpoint net = (.ok (), net₁) ∧
      next? net.point (k :: ms) k = some s ∧ prev? net.point (k :: ms) k = some p ∧
      net.predecessor? s = (if ms = [s] then none else some (net.self p)) ∧
      (∀ i, (stabilizeEach order net₁).told isHandover i
        = (if i = s then [.predecessorChanged (net.predecessor? s) (net.self k)] else [])
          ++ net.told isHandover i) ∧
      ∀ id, ∃ owner owner', (∀ j ∈ ms, ∃ net', lookup transport j id 0 net = (.ok owner, net')) ∧
        (∀ j ∈ k :: ms, ∃ net',
          lookup transport j id 0 (stabilizeEach order net₁) = (.ok owner', net')) ∧
        (owner ≠ owner' ↔ id.betweenIncl (net.point p) (net.point k) = true) ∧
        (owner ≠ owner' → owner = net.self s ∧ owner' = net.self k) := by
  have hd := ho.distinct
  have hkm : k ∈ k :: ms := List.mem_cons_self ..
  have ho' := ho.sublist (List.sublist_cons_self k ms)
  have hlimit : ∀ j ∈ ms, ms.length ≤ (net.member j).hopLimit.toNat :=
    fun j hj => Nat.le_of_lt (hlim j (List.mem_cons_of_mem k hj))
  obtain ⟨s, hs⟩ := Ring.exists_next? net.point hkm (Nat.succ_le_succ (List.length_pos_of_mem hm))
  obtain ⟨p, hp⟩ : ∃ p, prev? net.point (k :: ms) k = some p := by
    cases hp : prev? net.point (k :: ms) k with
    | none =>
      rw [Ring.prev?_eq_none_iff hkm, List.cons.injEq] at hp
      rw [hp.2] at hm
      cases hm
    | some p => exact ⟨p, rfl⟩
  have hsms : s ∈ ms := by
    obtain ⟨hsm, hsk, -⟩ := (Ring.next?_eq_some_iff hd hkm).1 hs
    exact List.mem_of_ne_of_mem hsk hsm
  -- the newcomer's place, its own round, and the rounds of the old members
  obtain ⟨L, F, _, net₂, ⟨hexact, -, hpred, hrounds⟩, hjoin, hconf₂, hring₂⟩ :=
    join_repaired ho hc hlimit hempty hm
  obtain ⟨net₁, henter, hconf₁, hring₁⟩ := hring₂.loose.enter_of_join hkm hjoin
  have hsub : order ⊆ k :: ms := List.subset_cons_of_subset k horder.subset
  obtain ⟨hconf, hring⟩ := hring₁.stabilizeEach hsub
  have hconf₁ := hconf₂.trans hconf₁
  have hall := hconf₁.trans hconf
  rw [hconf₁.point, hconf₂.point, hrounds order horder] at hring
  rw [hconf₂.point] at hring₁
  have hc' : Consistent (stabilizeEach order net₁) (k :: ms) :=
    hring.linked.consistent (hall.point.symm ▸ hexact)
  have hheralds := fun i => hring₁.heralds_stabilizeEach (i := i) hsub
  rw [hconf₁.self] at hheralds
  refine ⟨net₁, s, p, henter, hs, hp, ?_, ?_, ?_⟩
  · rw [hc.predecessor s hsms]
    split
    · next hlone => rw [(Ring.prev?_eq_none_iff hsms).2 hlone, Option.map_none]
    · next hlone => rw [Ring.prev?_of_newcomer hd hs hp hlone, Option.map_some]
  · apply told_of_heralds ho hc hc' hall hs
    · -- the newcomer's own predecessor is right from its own round on
      obtain ⟨-, es, htold, htrail⟩ := hheralds k
      rw [hring.predecessor?_eq hkm, hall.self, hring₁.predecessor?_eq hkm, hconf₁.self, hpred] at htrail
      have henter' := (hring₂.heralds_enter (i := k) hkm hconf₂.toKept hjoin).2
      rw [henter] at henter'
      rw [htold, htrail.eq_nil]
      exact henter'
    · intro i hik
      have henter' := (hring₂.heralds_enter (i := i) hkm hconf₂.toKept hjoin).1 hik
      rw [henter] at henter'
      exact (henter'.mono fun n hn => ⟨k, hkm, hn⟩).trans (hheralds i)
  · intro id
    obtain ⟨o, hown, hlook⟩ := hc.toRoutable.exists_owner ho' hlimit hm id
    obtain ⟨o', hown', hlook'⟩ := hc'.toRoutable.exists_owner (ho.of_kept hall.toKept)
      (fun j hj => by rw [hall.hopLimit]; exact hlim j hj) hkm id
    rw [hall.point] at hown'
    rw [hall.self] at hlook'
    exact ⟨net.self o, net.self o', hlook, hlook', owner_ne_iff ho hs hp hown hown'⟩

/-- The three members and the newcomer of the instance, which forward requests more often. -/
def patient : Network where
  members := trio.members.map fun m => { m with hopLimit := 4 }
  registry := trio.registry

theorem member_patient (k : Nat) :
    patient.self k = trio.self k ∧ patient.table k = trio.table k := by
  unfold self table member patient
  simp only
  rw [List.getElem?_map]
  cases trio.members[k]? with
  | none => exact ⟨rfl, rfl⟩
  | some m => exact ⟨rfl, rfl⟩

theorem consistent_patient : Consistent patient [0, 1, 2] := by
  have hself : patient.self = trio.self := funext fun k => (member_patient k).1
  have hpoint : patient.point = trio.point := congrArg (fun self k => (self k).id) hself
  have htable : patient.table = trio.table := funext fun k => (member_patient k).2
  refine ⟨⟨?_, ?_⟩, ?_⟩
  · rw [htable, hpoint, hself]
    exact consistent_trio.successor
  · rw [htable, hself]
    exact consistent_trio.finger
  · intro k hk
    rw [predecessor?, htable, hpoint, hself]
    exact consistent_trio.predecessor k hk

/-- The newcomer of the instance enters through the third member. -/
theorem enter_handover_patient : ∃ net₁ s p,
    enter transport 3 (patient.self 2).endpoint patient = (.ok (), net₁) ∧
      next? patient.point [3, 0, 1, 2] 3 = some s ∧ prev? patient.point [3, 0, 1, 2] 3 = some p ∧
      patient.predecessor? s = (if [0, 1, 2] = [s] then none else some (patient.self p)) ∧
      (∀ i, (stabilizeEach [2, 0, 1] net₁).told isHandover i
        = (if i = s then [.predecessorChanged (patient.predecessor? s) (patient.self 3)] else [])
          ++ patient.told isHandover i) ∧
      ∀ id, ∃ owner owner',
        (∀ j ∈ [0, 1, 2], ∃ net', lookup transport j id 0 patient = (.ok owner, net')) ∧
        (∀ j ∈ [3, 0, 1, 2], ∃ net',
          lookup transport j id 0 (stabilizeEach [2, 0, 1] net₁) = (.ok owner', net')) ∧
        (owner ≠ owner' ↔ id.betweenIncl (patient.point p) (patient.point 3) = true) ∧
        (owner ≠ owner' → owner = patient.self s ∧ owner' = patient.self 3) :=
  enter_handover ⟨rfl, ⟨by decide, by decide⟩, by decide, by decide⟩ consistent_patient (by decide) rfl
    (by decide) (by decide)

end RingOverlay.Network
