import RingOverlay.Proofs.Network.Fingers

/-!
# `Network.Halving` — lookups through slots that are all right

Where every slot holds what it is due, a lookup comes to the owner after a number of requests that does
not depend on how many members there are. What counts is how far the lookup still is from the last member
in front of the point. A member asks the highest slot that lies in front of the point, and that slot is at
least as far ahead as any slot that does not reach past the last member. So the rest of the way is halved
with each request, once it is shorter than half the ring; the highest slot reaches 2^254 steps ahead, a
quarter of the ring, which makes two requests more at the beginning.

## Contents
- **The last member.** `Last`, the member at which a lookup ends, and the way to it.
- **Slots that are right.** `Refreshed`, and the route that such slots give.
- **The way.** `span`, how far a number of requests leads, and `lookup_of_refreshed`.
- **An instance.** `Ready.exists_refreshed`, `choir`.
-/

namespace RingOverlay

/-! ## The last member -/

namespace Ring

/-- A member with no other one between it and a point clockwise. -/
structure Last (place : Nat → RingId) (ms : List Nat) (id : RingId) (p : Nat) : Prop where
  mem : p ∈ ms
  clear : ∀ j ∈ ms, ¬(place j).between (place p) id = true

variable {place : Nat → RingId} {ms : List Nat} {k j p : Nat} {id : RingId}

/-- In front of every point there is a last member: the one before the owner. -/
theorem exists_last (h : Distinct place ms) (hk : k ∈ ms) (id : RingId) : ∃ p, Last place ms id p := by
  cases hown : owner? place ms id with
  | none =>
    rw [owner?, List.argmin_eq_none] at hown
    rw [hown] at hk
    cases hk
  | some o =>
    have hom := ((owner?_eq_some_iff h).1 hown).1
    cases hp : prev? place ms o with
    | none =>
      -- a lone member is the last one in front of every point
      obtain rfl := (prev?_eq_none_iff hom).1 hp
      refine ⟨o, hom, ?_⟩
      intro j hj
      rw [List.mem_singleton.1 hj]
      exact RingId.not_between_left _ _
    | some p =>
      obtain ⟨hpm, -, hno⟩ := (prev?_eq_some_iff h hom).1 hp
      have hid := (owner?_eq_some_iff_betweenIncl h hom hp).1 hown
      refine ⟨p, hpm, ?_⟩
      intro j hj hb
      rcases RingId.betweenIncl_iff.1 hid with rfl | hid
      · exact hno j hj hb
      · exact hno j hj (RingId.between_of_between_left hid hb)

/-- All other members have the last one ahead of them, in front of the point. -/
theorem Last.between (hp : Last place ms id p) (hk : k ∈ ms) (hne : place k ≠ place p) :
    (place p).between (place k) id = true := by
  have hno := hp.clear k hk
  rw [← RingId.val_ne_iff] at hne
  rw [RingId.between_iff_val] at hno ⊢
  omega

/-- On the way to the point every member comes before the last one. -/
theorem Last.dist_add_dist (hp : Last place ms id p) (hk : k ∈ ms) (hj : j ∈ ms)
    (hb : (place j).between (place k) id = true) :
    (place k).dist (place j) + (place j).dist (place p) = (place k).dist (place p) := by
  have hnk := hp.clear k hk
  have hnj := hp.clear j hj
  have h1 := RingId.dist_spec (place k) (place j)
  have h2 := RingId.dist_spec (place j) (place p)
  have h3 := RingId.dist_spec (place k) (place p)
  have hvk := RingId.val_lt (place k)
  have hvj := RingId.val_lt (place j)
  have hvp := RingId.val_lt (place p)
  rw [RingId.between_iff_val] at hnk hnj hb
  omega

/-- What is no farther ahead than the last member lies in front of the point. -/
theorem Last.between_of_dist_le (hp : Last place ms id p) (hk : k ∈ ms)
    (hpos : 0 < (place k).dist (place j))
    (hle : (place k).dist (place j) ≤ (place k).dist (place p)) :
    (place j).between (place k) id = true := by
  have hkp : place k ≠ place p := RingId.dist_pos_iff.1 (Nat.lt_of_lt_of_le hpos hle)
  have hb := hp.between hk hkp
  by_cases hid : place k = id
  · rw [hid, RingId.between_self_iff, ← hid]
    exact (RingId.dist_pos_iff.1 hpos).symm
  · rw [RingId.between_iff_dist hid] at hb ⊢
    exact ⟨hpos, Nat.lt_of_le_of_lt hle hb.2⟩

end Ring

/-! ## Slots that are right -/

namespace Network

open RingOverlay.Ring (owner? next? Last)

variable {net net' : Network} {ms : List Nat} {k p : Nat} {id : RingId}

/-- Every successor is the next member clockwise, and every other slot holds what it is due. -/
structure Refreshed (net : Network) (ms : List Nat) : Prop where
  successor : ∀ k ∈ ms, (net.table k).successor? = (next? net.point ms k).map net.self
  finger : ∀ k ∈ ms, ∀ i, 1 ≤ i → i ≤ 255 → (net.table k).finger i = due? net ms k i

/-- An entry that is due is another member, and as far ahead as its slot reaches. -/
theorem exists_of_due? (ho : Online net ms) (hk : k ∈ ms) {i : Nat} (hi : i ≤ 255) {n : Node}
    (hn : due? net ms k i = some n) : ∃ o ∈ ms, net.self o = n ∧
      2 ^ (i - 1) ≤ (net.point k).dist (net.point o) ∧ ∀ j ∈ ms,
        2 ^ (i - 1) ≤ (net.point k).dist (net.point j) →
          (net.point k).dist (net.point o) ≤ (net.point k).dist (net.point j) := by
  rw [due?_eq, Option.map_eq_some_iff] at hn
  obtain ⟨o, ho', rfl⟩ := hn
  obtain ⟨hom, hfar, hmin⟩ :=
    (Ring.ahead?_eq_some_iff ho.distinct hk (Nat.two_pow_pos _) (pow_lt hi)).1 ho'
  exact ⟨o, hom, rfl, hfar, hmin⟩

theorem Refreshed.finger_eq (h : Refreshed net ms) (ho : Online net ms) (hk : k ∈ ms) {i : Nat}
    (hi : i ≤ 255) : (net.table k).finger i = due? net ms k i := by
  rcases Nat.eq_zero_or_pos i with rfl | hpos
  · rw [due?_zero ho hk]
    exact h.successor k hk
  · exact h.finger k hk i hpos hi

/-- The slots of a member hold other members, none nearer than its slot reaches. -/
theorem Refreshed.reaching (h : Refreshed net ms) (ho : Online net ms) (hk : k ∈ ms) :
    Reaching net ms k (net.table k) := by
  intro i n hn
  rcases Nat.lt_or_ge i 256 with hi | hi
  · rw [h.finger_eq ho hk (Nat.le_of_lt_succ hi)] at hn
    obtain ⟨o, hom, he, hfar, -⟩ := exists_of_due? ho hk (Nat.le_of_lt_succ hi) hn
    refine ⟨o, hom, ?_, he, hfar⟩
    rintro rfl
    rw [RingId.dist_self] at hfar
    exact absurd (Nat.two_pow_pos (i - 1)) (Nat.not_lt.2 hfar)
  · rw [Table.finger_of_le _ hi] at hn
    cases hn

theorem Refreshed.routable (h : Refreshed net ms) (ho : Online net ms) : Routable net ms where
  successor := h.successor
  finger k hk i n hn := by
    obtain ⟨l, hl, hne, he, -⟩ := h.reaching ho hk i n hn
    exact ⟨l, hl, hne, he⟩

/-- A member that is not the last one in front of the point asks a member on the way that is as far ahead
    as any slot that does not reach past the last member. -/
theorem Refreshed.forward (h : Refreshed net ms) (ho : Online net ms) (hk : k ∈ ms)
    (hp : Last net.point ms id p) {l : Nat} (hl : l ∈ ms)
    (hroute : (net.table k).route (net.self k) id = .forward (net.self l)) {i : Nat} (hi : 1 ≤ i)
    (hi' : i ≤ 255) (hreach : 2 ^ (i - 1) ≤ (net.point k).dist (net.point p)) :
    2 ^ (i - 1) ≤ (net.point k).dist (net.point l) := by
  have hd := ho.distinct
  -- slot `i` holds a member in front of the point, so the closest one is in slot `i` or above
  cases hx : Ring.ahead? net.point ms k (2 ^ (i - 1)) with
  | none =>
    have hnone := (Ring.ahead?_eq_none_iff hd hk (Nat.two_pow_pos _) (pow_lt hi')).1 hx p hp.mem
    omega
  | some x =>
    obtain ⟨hxm, hxfar, hxmin⟩ :=
      (Ring.ahead?_eq_some_iff hd hk (Nat.two_pow_pos _) (pow_lt hi')).1 hx
    have hfinger := h.finger k hk i hi hi'
    rw [due?_eq, hx, Option.map_some] at hfinger
    have hxpos := Nat.lt_of_lt_of_le (Nat.two_pow_pos _) hxfar
    obtain ⟨j, m, hij, hj, hm, hclosest⟩ := Table.closestPreceding_of_finger hfinger
      (hp.between_of_dist_le hk hxpos (hxmin p hp.mem hreach))
    obtain ⟨y, hym, -, rfl, hyfar⟩ := h.reaching ho hk j m hj
    have hly : net.self l = net.self y := by
      rw [Table.route_eq] at hroute
      split at hroute
      · cases hroute
      · rw [hclosest, Table.Route.forward.injEq] at hroute
        exact hroute.symm
    obtain rfl := ho.self_injective hl hym hly
    have hpow : 2 ^ (i - 1) ≤ 2 ^ (j - 1) := Nat.pow_le_pow_right (by decide) (by omega)
    exact Nat.le_trans hpow hyfar

/-! ## The way -/

/-- A lookup that is fewer than `span c` steps from its end gets there with `c` requests. -/
def span : Nat → Nat
  | 0 => 1
  | c + 1 => span c + 2 ^ min c 254

theorem pow_le_span (c : Nat) : 2 ^ min c 254 ≤ span c := by
  induction c with
  | zero => exact Nat.le_refl 1
  | succ c ih =>
    have hmin : min (c + 1) 254 ≤ min c 254 + 1 := by omega
    calc 2 ^ min (c + 1) 254 ≤ 2 ^ (min c 254 + 1) := Nat.pow_le_pow_right (by decide) hmin
      _ = 2 ^ min c 254 + 2 ^ min c 254 := by rw [Nat.pow_succ, Nat.mul_two]
      _ ≤ span (c + 1) := Nat.add_le_add_right ih _

/-- As long as the slots reach far enough, each request doubles the way. -/
theorem span_eq_pow {c : Nat} (hc : c ≤ 255) : span c = 2 ^ c := by
  induction c with
  | zero => rfl
  | succ c ih =>
    rw [span, ih (by omega), Nat.min_eq_left (by omega), Nat.pow_succ, Nat.mul_two]

/-- No way is longer than 257 requests lead. -/
theorem span_257 : span 257 = 2 ^ 256 := by
  rw [span, span, span_eq_pow (Nat.le_refl 255)]
  decide

/-- Each request shortens the rest of the way to what one request less leads to. -/
theorem Refreshed.descends (h : Refreshed net ms) (ho : Online net ms) (hp : Last net.point ms id p) :
    Descends net ms id fun k c => (net.point k).dist (net.point p) < span c := by
  intro k hk l hl hroute c hc
  -- the last member in front of the point asks nobody
  have hb : (net.point l).between (net.point k) id = true := by
    rcases (h.routable ho).route ho hk id with ⟨o, -, hroute'⟩ | ⟨j, hj, hb, hroute'⟩
    · rw [hroute] at hroute'
      cases hroute'
    · rw [hroute, Table.Route.forward.injEq] at hroute'
      rw [ho.self_injective hl hj hroute']
      exact hb
  have hsum := hp.dist_add_dist hk hl hb
  have hpos : 0 < (net.point k).dist (net.point l) := by
    rw [RingId.dist_pos_iff]
    intro he
    rw [he] at hb
    exact RingId.not_between_left _ _ hb
  cases c with
  | zero =>
    rw [span] at hc
    omega
  | succ c =>
    refine ⟨c, rfl, ?_⟩
    rcases Nat.lt_or_ge ((net.point k).dist (net.point p)) (span c) with hlt | hge
    · omega
    · have hreach := h.forward ho hk hp hl hroute (i := min c 254 + 1) (by omega) (by omega)
        (Nat.le_trans (pow_le_span c) hge)
      rw [Nat.add_sub_cancel] at hreach
      rw [span] at hc
      omega

/-- Where all slots are right, every lookup at every member comes to the owner with at most 257 requests,
    however many members there are and wherever they lie. -/
theorem lookup_of_refreshed (ho : Online net ms) (h : Refreshed net ms)
    (hlim : ∀ k ∈ ms, 257 ≤ (net.member k).hopLimit.toNat) (hk : k ∈ ms) (id : RingId) :
    ∃ o net', owner? net.point ms id = some o ∧
      lookup transport k id 0 net = (.ok (net.self o), net') ∧ Asked net net' .successor 257 := by
  obtain ⟨p, hp⟩ := Ring.exists_last ho.distinct hk id
  have hstart : (net.point k).dist (net.point p) < span 257 := by
    rw [span_257]
    exact RingId.dist_lt _ _
  have hbelow := hopLimit_lt_callDepth (ho.lt_length hk)
  have hlimit := hlim k hk
  rw [lookup_transport]
  exact lookup_descends ho (h.routable ho) (h.descends ho hp) hlim hk 0 hstart (by omega)
    (by rw [UInt32.toNat_zero])

/-! ## An instance -/

/-- Once every slot of every member has been refreshed, all slots are right. -/
theorem Ready.exists_refreshed (h : Ready net ms) : ∃ net', Kept net net' ∧ Refreshed net' ms := by
  have hcalls : ∀ c ∈ ms.flatMap fun k => (List.range 255).map fun i => (k, i + 1),
      c.1 ∈ ms ∧ 1 ≤ c.2 ∧ c.2 ≤ 255 := by
    intro c hc
    obtain ⟨k, hk, hc⟩ := List.mem_flatMap.1 hc
    obtain ⟨i, hi, rfl⟩ := List.mem_map.1 hc
    exact ⟨hk, Nat.le_add_left 1 i, Nat.succ_le_of_lt (List.mem_range.1 hi)⟩
  obtain ⟨net', -, hkept, hready, -, hdue⟩ := h.fixEach hcalls
  refine ⟨net', hkept, hready.routable.successor, ?_⟩
  intro k hk i hi hi'
  refine hdue (k, i) (List.mem_flatMap.2 ⟨k, hk, List.mem_map.2 ⟨i - 1, ?_, ?_⟩⟩)
  · exact List.mem_range.2 (by omega)
  · rw [Nat.sub_add_cancel hi]

/-- The members of `trio`, when they may forward a lookup as often as it may take. -/
def choir : Network :=
  { trio with members := trio.members.map fun m => { m with hopLimit := 257 } }

theorem choir_eq_trio : choir.self = trio.self ∧ choir.table = trio.table := by
  have hmember : ∀ k, choir.self k = trio.self k ∧ choir.table k = trio.table k := by
    intro k
    simp only [Network.self, Network.table, member, choir, List.getElem?_map]
    cases trio.members[k]? with
    | none => exact ⟨rfl, rfl⟩
    | some m => exact ⟨rfl, rfl⟩
  exact ⟨funext fun k => (hmember k).1, funext fun k => (hmember k).2⟩

theorem online_choir : Online choir [0, 1, 2] :=
  ⟨rfl, ⟨by decide, by decide⟩, by decide, by decide⟩

theorem ready_choir : Ready choir [0, 1, 2] := by
  obtain ⟨hself, htable⟩ := choir_eq_trio
  have hpoint : choir.point = trio.point := funext fun k => congrArg Node.id (congrFun hself k)
  have hroute : Routable choir [0, 1, 2] := by
    refine ⟨?_, ?_⟩
    · rw [hself, htable, hpoint]
      exact consistent_trio.successor
    · rw [hself, htable]
      exact consistent_trio.finger
  have hspaced : Spaced choir [0, 1, 2] := by
    unfold Spaced
    rw [htable, hpoint]
    exact spaced_trio
  exact hroute.ready online_choir (by decide) hspaced

/-- A lookup at the last of three members when all slots have been refreshed. -/
theorem lookup_of_refreshed_choir : ∃ net, Kept choir net ∧ Online net [0, 1, 2] ∧
    Refreshed net [0, 1, 2] ∧ (∀ k ∈ [0, 1, 2], 257 ≤ (net.member k).hopLimit.toNat) ∧
    ∃ o net', owner? net.point [0, 1, 2] (.ofNat 6) = some o ∧
      lookup transport 2 (.ofNat 6) 0 net = (.ok (net.self o), net') ∧
      Asked net net' .successor 257 := by
  obtain ⟨net, hkept, hrefreshed⟩ := ready_choir.exists_refreshed
  have honline := online_choir.of_kept hkept
  have hlimit : ∀ k ∈ [0, 1, 2], 257 ≤ (net.member k).hopLimit.toNat := by
    intro k hk
    rw [hkept.hopLimit]
    revert k
    decide
  exact ⟨net, hkept, honline, hrefreshed, hlimit,
    lookup_of_refreshed honline hrefreshed hlimit (by decide) (.ofNat 6)⟩

end Network

end RingOverlay
