import Mathlib.Algebra.Group.Int.Defs
import RingOverlay.Proofs.RingId.Value

/-!
# `RingId.Arc` — arcs as clockwise distances

`dist a b` counts the steps clockwise from `a` to `b`. An arc is the set of points that are nearer than
its end, which is how the protocol's statements are read; `between` decides it without distances.

## Contents
- **Distance.** `dist`, `dist_spec`, `dist_eq_emod`, and its injectivity on either side.
- **Arcs.** `between_iff_dist`, `betweenIncl_iff_dist`.
- **Cutting an arc.** What lies in a part of an arc lies in the arc.
-/

namespace RingOverlay.RingId

/-! ## Distance -/

/-- The number of steps clockwise from `a` to `b`. -/
def dist (a b : RingId) : Nat := (b.val + 2 ^ 256 - a.val) % 2 ^ 256

/-- A way that does not pass the start of the ring, and one that does. -/
theorem dist_spec (a b : RingId) :
    (a.val ≤ b.val ∧ dist a b + a.val = b.val) ∨
      (b.val < a.val ∧ dist a b + a.val = b.val + 2 ^ 256) := by
  have ha := val_lt a
  have hb := val_lt b
  unfold dist
  omega

/-- The distance is the difference of the values, modulo the length of the ring. -/
theorem dist_eq_emod (a b : RingId) : (dist a b : Int) = ((b.val : Int) - a.val) % 2 ^ 256 := by
  have ha := val_lt a
  have hb := val_lt b
  unfold dist
  omega

theorem dist_lt (a b : RingId) : dist a b < 2 ^ 256 := Nat.mod_lt _ (by decide)

theorem dist_self (a : RingId) : dist a a = 0 := by
  have h := dist_spec a a
  omega

theorem dist_pos_iff {a b : RingId} : 0 < dist a b ↔ a ≠ b := by
  have h := dist_spec a b
  have ha := val_lt a
  rw [← val_ne_iff]
  omega

theorem dist_right_injective {a b c : RingId} (h : dist a b = dist a c) : b = c := by
  have hb := dist_spec a b
  have hc := dist_spec a c
  have hlb := val_lt b
  have hlc := val_lt c
  exact val_injective (by omega)

theorem dist_left_injective {a b c : RingId} (h : dist b a = dist c a) : b = c := by
  have hb := dist_spec b a
  have hc := dist_spec c a
  have hlb := val_lt b
  have hlc := val_lt c
  exact val_injective (by omega)

/-! ## Arcs -/

/-- Inside an arc are the points ahead of its start that are nearer than its end. -/
theorem between_iff_dist {x lo hi : RingId} (h : lo ≠ hi) :
    x.between lo hi = true ↔ 0 < dist lo x ∧ dist lo x < dist lo hi := by
  rw [← val_ne_iff] at h
  have hx := dist_spec lo x
  have hh := dist_spec lo hi
  have hlx := val_lt x
  have hlh := val_lt hi
  have hll := val_lt lo
  rw [between_iff_val]
  omega

/-- An arc whose ends coincide is the whole ring without that point. -/
theorem between_self_iff {x lo : RingId} : x.between lo lo = true ↔ x ≠ lo := by
  rw [between_iff_val, ← val_ne_iff]
  omega

theorem betweenIncl_iff {x lo hi : RingId} :
    x.betweenIncl lo hi = true ↔ x = hi ∨ x.between lo hi = true := by
  rw [betweenIncl, Bool.or_eq_true, beq_iff_eq]

theorem betweenIncl_self (x lo : RingId) : x.betweenIncl lo lo = true := by
  rw [betweenIncl_iff, between_self_iff]
  exact Classical.em _

/-- An arc that contains its end. -/
theorem betweenIncl_iff_dist {x lo hi : RingId} (h : lo ≠ hi) :
    x.betweenIncl lo hi = true ↔ 0 < dist lo x ∧ dist lo x ≤ dist lo hi := by
  rw [betweenIncl_iff, between_iff_dist h]
  constructor
  · rintro (rfl | hx)
    · exact ⟨dist_pos_iff.2 h, Nat.le_refl _⟩
    · exact ⟨hx.1, Nat.le_of_lt hx.2⟩
  · rintro ⟨h0, hx⟩
    rcases Nat.lt_or_eq_of_le hx with hlt | heq
    · exact .inr ⟨h0, hlt⟩
    · exact .inl (dist_right_injective heq)

/-- No arc contains its start. -/
theorem not_between_left (lo hi : RingId) : ¬lo.between lo hi = true := by
  rw [between_iff_val]
  omega

/-- No arc contains its end. -/
theorem not_between_right (lo hi : RingId) : ¬hi.between lo hi = true := by
  rw [between_iff_val]
  omega

/-- Inside an arc are the points that are nearer to its end than its start is. -/
theorem between_iff_dist_start {x lo hi : RingId} (hx : x ≠ hi) (hlo : lo ≠ hi) :
    x.between lo hi = true ↔ dist x hi < dist lo hi := by
  have h1 := dist_spec x hi
  have h2 := dist_spec lo hi
  have hlx := val_lt x
  have hll := val_lt lo
  rw [← val_ne_iff] at hx hlo
  rw [between_iff_val]
  omega

/-- An end that an arc up to a point passes lies before that point. -/
theorem between_of_not_betweenIncl {x lo hi : RingId} (h : ¬x.betweenIncl lo hi = true) :
    hi.between lo x = true := by
  rw [betweenIncl_iff, between_iff_val, ← val_inj] at h
  rw [between_iff_val]
  omega

/-! ## Cutting an arc -/

variable {x y lo hi : RingId}

/-- The first part of an arc that is cut at one of its points. -/
theorem between_of_between_left (hy : y.between lo hi = true) (hx : x.between lo y = true) :
    x.between lo hi = true := by
  rw [between_iff_val] at *
  omega

/-- The second part of an arc that is cut at one of its points. -/
theorem between_of_between_right (hy : y.between lo hi = true) (hx : x.between y hi = true) :
    x.between lo hi = true := by
  rw [between_iff_val] at *
  omega

/-- Inside an arc that ends at `hi` is what lies farther clockwise from `hi` than its start. -/
theorem between_iff_dist_end : x.between lo hi = true ↔ dist hi lo < dist hi x := by
  have h1 := dist_spec hi lo
  have h2 := dist_spec hi x
  have h3 := val_lt x
  have h4 := val_lt lo
  rw [between_iff_val]
  omega

/-- On the way to `hi` the distance from `hi` grows. -/
theorem dist_lt_dist_of_between (h : x.between lo hi = true) : dist hi lo < dist hi x :=
  between_iff_dist_end.1 h

end RingOverlay.RingId
