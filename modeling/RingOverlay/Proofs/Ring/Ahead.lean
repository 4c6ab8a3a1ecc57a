import RingOverlay.Proofs.Ring.Clockwise
import RingOverlay.Proofs.RingId.Sum

/-!
# `Ring.Ahead` — the first member some steps ahead

`ahead? place ms k d` is the first other member that is at least `d` steps clockwise from `k`: the owner
of the point `d` steps ahead, unless that is `k` itself. One step ahead it is the next member, so what
holds of all `d` holds of successors, too.

## Contents
- **Distances.** `dist_add_left`.
- **Specification.** `ahead?` and its readings.
- **The next member.** `ahead?_one`.
-/

namespace RingOverlay

namespace RingId

/-! ## Distances -/

/-- From a point `d` steps on, what is at least as far ahead comes `d` steps earlier, and all else is
    reached past the starting point only. -/
theorem dist_add_left (x y : RingId) {d : Nat} (hd : d < 2 ^ 256) :
    (d ≤ x.dist y ∧ (x + ofNat d).dist y + d = x.dist y) ∨
      (x.dist y < d ∧ (x + ofNat d).dist y + d = x.dist y + 2 ^ 256) := by
  have hsum := val_add x (ofNat d)
  rw [val_ofNat, Nat.mod_eq_of_lt hd] at hsum
  have h1 := dist_spec x y
  have h2 := dist_spec (x + ofNat d) y
  have hx := val_lt x
  have hy := val_lt y
  omega

end RingId

namespace Ring

/-! ## Specification -/

/-- The first other member at least `d` steps ahead of `k`. -/
def ahead? (place : Nat → RingId) (ms : List Nat) (k d : Nat) : Option Nat :=
  (owner? place ms (place k + .ofNat d)).filter (· ≠ k)

variable {place : Nat → RingId} {ms : List Nat} {k d : Nat}

/-- It is the nearest of those that are far enough. -/
theorem ahead?_eq_some_iff (h : Distinct place ms) (hk : k ∈ ms) (hpos : 0 < d) (hd : d < 2 ^ 256)
    {o : Nat} : ahead? place ms k d = some o ↔ o ∈ ms ∧ d ≤ (place k).dist (place o) ∧
      ∀ j ∈ ms, d ≤ (place k).dist (place j) → (place k).dist (place o) ≤ (place k).dist (place j) := by
  rw [ahead?, Option.filter_eq_some_iff, owner?_eq_some_iff h, decide_eq_true_eq]
  have ho := RingId.dist_add_left (place k) (place o) hd
  have hlt := RingId.dist_lt (place k) (place o)
  constructor
  · rintro ⟨⟨hom, hmin⟩, hne⟩
    -- `k` itself is all the way round, and `o` comes before it
    have hself := hmin k hk
    have hback := RingId.dist_add_left (place k) (place k) hd
    rw [RingId.dist_self] at hback
    have hfar := RingId.dist_pos_iff.2 (place_ne h hk hom hne)
    refine ⟨hom, by omega, ?_⟩
    intro j hj hdj
    have hle := hmin j hj
    have hj' := RingId.dist_add_left (place k) (place j) hd
    omega
  · rintro ⟨hom, hdo, hmin⟩
    refine ⟨⟨hom, ?_⟩, ?_⟩
    · intro j hj
      have hj' := RingId.dist_add_left (place k) (place j) hd
      have hmin' := hmin j hj
      omega
    · rintro rfl
      rw [RingId.dist_self] at hdo
      omega

/-- There is none where no member is far enough. -/
theorem ahead?_eq_none_iff (h : Distinct place ms) (hk : k ∈ ms) (hpos : 0 < d) (hd : d < 2 ^ 256) :
    ahead? place ms k d = none ↔ ∀ j ∈ ms, (place k).dist (place j) < d := by
  constructor
  · intro hnone j hj
    cases howner : owner? place ms (place k + .ofNat d) with
    | none =>
      rw [owner?, List.argmin_eq_none] at howner
      rw [howner] at hj
      cases hj
    | some o =>
      obtain rfl : o = k := by
        rw [ahead?, howner] at hnone
        by_contra hne
        rw [Option.filter_some, if_pos (decide_eq_true hne)] at hnone
        cases hnone
      -- nobody comes before the starting point itself
      have hle := ((owner?_eq_some_iff h).1 howner).2 j hj
      have hback := RingId.dist_add_left (place o) (place o) hd
      have hj' := RingId.dist_add_left (place o) (place j) hd
      have hlt := RingId.dist_lt (place o) (place j)
      rw [RingId.dist_self] at hback
      omega
  · intro hall
    cases hsome : ahead? place ms k d with
    | none => rfl
    | some o =>
      obtain ⟨hom, hdo, -⟩ := (ahead?_eq_some_iff h hk hpos hd).1 hsome
      exact absurd (hall o hom) (Nat.not_lt.2 hdo)

/-! ## The next member -/

/-- One step ahead or more is every other member, and the nearest of them is the next one. -/
theorem ahead?_one (h : Distinct place ms) (hk : k ∈ ms) : ahead? place ms k 1 = next? place ms k := by
  cases hnext : next? place ms k with
  | none =>
    rw [ahead?_eq_none_iff h hk Nat.one_pos (by decide)]
    intro j hj
    rw [(next?_eq_none_iff hk).1 hnext, List.mem_singleton] at hj
    rw [hj, RingId.dist_self]
    exact Nat.one_pos
  | some s =>
    rw [ahead?_eq_some_iff h hk Nat.one_pos (by decide)]
    obtain ⟨hsm, hne, hno⟩ := (next?_eq_some_iff h hk).1 hnext
    have hks := place_ne h hk hsm hne
    refine ⟨hsm, RingId.dist_pos_iff.2 hks, ?_⟩
    intro j hj hpos
    have hno' := hno j hj
    rw [RingId.between_iff_dist hks] at hno'
    omega

end Ring

end RingOverlay
