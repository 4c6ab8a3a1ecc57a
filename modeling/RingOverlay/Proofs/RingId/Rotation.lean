import RingOverlay.Proofs.RingId.Sum

/-!
# `RingId.Rotation` — the ring has no first point

Arcs are decided by comparing values, and values have a start that the ring does not have. In distances
that start is gone: adding one point to all ends turns the ring, keeps every distance and so every arc.
The two arcs between two points and the points themselves share out the ring.

## Contents
- **Turning.** `dist_add_right`, `between_add_right`, `betweenIncl_add_right`.
- **Positions.** `between_swap`, `count_positions`.
- **Arcs.** `arcs_by_distance`.
-/

namespace RingOverlay.RingId

/-! ## Turning -/

/-- Points that turn together keep their distance. -/
theorem dist_add_right (a b s : RingId) : dist (a + s) (b + s) = dist a b := by
  have h := dist_spec a b
  have h' := dist_spec (a + s) (b + s)
  have ha := val_lt a
  have hb := val_lt b
  have hs := val_lt s
  rw [val_add, val_add] at h'
  omega

theorem add_left_inj {x y s : RingId} : x + s = y + s ↔ x = y := by
  constructor
  · intro h
    have hd := dist_add_right x y s
    rw [h, dist_self, ← dist_self x] at hd
    exact dist_right_injective hd
  · rintro rfl
    rfl

theorem between_add_right (x lo hi s : RingId) :
    (x + s).between (lo + s) (hi + s) = x.between lo hi := by
  rw [Bool.eq_iff_iff, between_iff_dist_end, between_iff_dist_end, dist_add_right, dist_add_right]

theorem betweenIncl_add_right (x lo hi s : RingId) :
    (x + s).betweenIncl (lo + s) (hi + s) = x.betweenIncl lo hi := by
  rw [Bool.eq_iff_iff, betweenIncl_iff, betweenIncl_iff, between_add_right, add_left_inj]

/-! ## Positions -/

/-- A point that is neither end lies on one of the two arcs, and not on both. -/
theorem between_swap {x lo hi : RingId} (hlo : x ≠ lo) (hhi : x ≠ hi) (h : lo ≠ hi) :
    x.between hi lo = !x.between lo hi := by
  rw [← val_ne_iff] at hlo hhi h
  rw [Bool.eq_iff_iff, Bool.not_eq_true', ← Bool.not_eq_true, between_iff_val, between_iff_val]
  omega

/-- Of two ends and the two arcs between them, a point is on exactly one. -/
theorem count_positions (x : RingId) {lo hi : RingId} (h : lo ≠ hi) :
    [x == lo, x == hi, x.between lo hi, x.between hi lo].count true = 1 := by
  by_cases hlo : x = lo
  · subst hlo
    rw [beq_self_eq_true, beq_false_of_ne h, Bool.eq_false_iff.2 (not_between_left x hi),
      Bool.eq_false_iff.2 (not_between_right hi x)]
    rfl
  by_cases hhi : x = hi
  · subst hhi
    rw [beq_self_eq_true, beq_false_of_ne hlo, Bool.eq_false_iff.2 (not_between_right lo x),
      Bool.eq_false_iff.2 (not_between_left x lo)]
    rfl
  rw [beq_false_of_ne hlo, beq_false_of_ne hhi, between_swap hlo hhi h]
  cases x.between lo hi <;> rfl

/-! ## Arcs -/

/-- Arcs are read off clockwise distances, for ends that coincide as well; they turn with the ring, and
    two different ends with the arcs between them share out the ring. -/
theorem arcs_by_distance (x lo hi : RingId) :
    (x.between lo hi = true ↔
      (lo ≠ hi ∧ 0 < dist lo x ∧ dist lo x < dist lo hi) ∨ (lo = hi ∧ x ≠ lo)) ∧
    (x.betweenIncl lo hi = true ↔ lo = hi ∨ (0 < dist lo x ∧ dist lo x ≤ dist lo hi)) ∧
    (∀ s, (x + s).between (lo + s) (hi + s) = x.between lo hi ∧
      (x + s).betweenIncl (lo + s) (hi + s) = x.betweenIncl lo hi) ∧
    (lo ≠ hi → [x == lo, x == hi, x.between lo hi, x.between hi lo].count true = 1) := by
  refine ⟨?_, ?_, fun s => ⟨between_add_right x lo hi s, betweenIncl_add_right x lo hi s⟩,
    count_positions x⟩
  · by_cases h : lo = hi
    · subst h
      simp only [ne_eq, not_true_eq_false, false_and, true_and, false_or, between_self_iff]
    · simp only [h, ne_eq, not_false_eq_true, true_and, false_and, or_false, between_iff_dist h]
  · by_cases h : lo = hi
    · subst h
      exact iff_of_true (betweenIncl_self x lo) (.inl rfl)
    · simp only [h, false_or, betweenIncl_iff_dist h]

/-- The start of the ring, seen from both sides of it. -/
theorem arcs_by_distance_start :
    last ≠ one ∧
    [zero == last, zero == one, zero.between last one, zero.between one last].count true = 1 :=
  ⟨by decide, (arcs_by_distance zero last one).2.2.2 (by decide)⟩

end RingOverlay.RingId
