import Mathlib.Algebra.Group.Nat.Defs
import RingOverlay.RingId.Basic

/-!
# `RingId.Value` — points as numbers below 2^256

Everything that the words of a point do is a fact about its value. Order, arcs and products are moved
to values here, and the modules that follow argue about natural numbers only.

## Contents
- **Values.** `val_lt`, `val_injective`, `val_ofNat`, `exists_val_eq`.
- **Order.** `compare_eq_compare_val`, `lt_iff_val_lt`, and `between_iff_val` for arcs.
- **Products and quotients.** `mulAdd?_eq_some_iff`, `val_divRem`.
-/

namespace RingOverlay.RingId

/-! ## Values -/

/-- A value is below 2^256. -/
theorem val_lt (x : RingId) : x.val < 2 ^ 256 := by
  have h3 := x.w3.toNat_lt
  have h2 := x.w2.toNat_lt
  have h1 := x.w1.toNat_lt
  have h0 := x.w0.toNat_lt
  unfold val
  omega

/-- Points with the same value are the same. -/
theorem val_injective {x y : RingId} (h : x.val = y.val) : x = y := by
  obtain ⟨x3, x2, x1, x0⟩ := x
  obtain ⟨y3, y2, y1, y0⟩ := y
  have hx2 := x2.toNat_lt
  have hx1 := x1.toNat_lt
  have hx0 := x0.toNat_lt
  have hy2 := y2.toNat_lt
  have hy1 := y1.toNat_lt
  have hy0 := y0.toNat_lt
  simp only [val] at h
  simp only [mk.injEq, ← UInt64.toNat_inj]
  omega

theorem val_inj {x y : RingId} : x.val = y.val ↔ x = y :=
  ⟨val_injective, fun h => h ▸ rfl⟩

theorem val_ne_iff {x y : RingId} : x.val ≠ y.val ↔ x ≠ y := not_congr val_inj

theorem val_zero : zero.val = 0 := by decide

/-- The point of a number has its remainder as value. -/
theorem val_ofNat (n : Nat) : (ofNat n).val = n % 2 ^ 256 := by
  simp only [ofNat, val, UInt64.toNat_ofNat']
  omega

theorem ofNat_val (x : RingId) : ofNat x.val = x := by
  apply val_injective
  rw [val_ofNat, Nat.mod_eq_of_lt (val_lt x)]

/-- Every number below 2^256 is the value of a point. -/
theorem exists_val_eq {n : Nat} (h : n < 2 ^ 256) : ∃ x : RingId, x.val = n :=
  ⟨ofNat n, (val_ofNat n).trans (Nat.mod_eq_of_lt h)⟩

/-! ## Order -/

/-- The leading parts of two numerals decide their order, and the last digits where these agree. -/
theorem compare_numeral {base a b c d : Nat} (hc : c < base) (hd : d < base) :
    compare (a * base + c) (b * base + d) = (compare a b).then (compare c d) := by
  rcases Nat.lt_trichotomy a b with h | rfl | h
  · have hm := Nat.mul_le_mul_right base h
    rw [Nat.succ_mul] at hm
    rw [Nat.compare_eq_lt.2 h, Ordering.lt_then, Nat.compare_eq_lt]
    omega
  · rw [Nat.compare_eq_eq.2 rfl, Ordering.eq_then]
    rcases Nat.lt_trichotomy c d with h | rfl | h
    · rw [Nat.compare_eq_lt.2 h, Nat.compare_eq_lt.2 (Nat.add_lt_add_left h _)]
    · rw [Nat.compare_eq_eq.2 rfl, Nat.compare_eq_eq.2 rfl]
    · rw [Nat.compare_eq_gt.2 h, Nat.compare_eq_gt.2 (Nat.add_lt_add_left h _)]
  · have hm := Nat.mul_le_mul_right base h
    rw [Nat.succ_mul] at hm
    rw [Nat.compare_eq_gt.2 h, Ordering.gt_then, Nat.compare_eq_gt]
    omega

theorem compare_word (a b : UInt64) : compare a b = compare a.toNat b.toNat := by
  show compareOfLessAndEq a b = compareOfLessAndEq a.toNat b.toNat
  simp only [compareOfLessAndEq, UInt64.lt_iff_toNat_lt, UInt64.toNat_inj]

/-- Comparing words from the left compares values. -/
theorem compare_eq_compare_val (x y : RingId) : compare x y = compare x.val y.val := by
  unfold val
  rw [compare_numeral x.w0.toNat_lt y.w0.toNat_lt, compare_numeral x.w1.toNat_lt y.w1.toNat_lt,
    compare_numeral x.w2.toNat_lt y.w2.toNat_lt, ← compare_word, ← compare_word, ← compare_word,
    ← compare_word, Ordering.then_assoc, Ordering.then_assoc]
  rfl

theorem lt_iff_val_lt {x y : RingId} : x < y ↔ x.val < y.val := by
  show compare x y = .lt ↔ _
  rw [compare_eq_compare_val, Nat.compare_eq_lt]

/-- An open arc by values: one that does not pass the start of the ring, one that does, and one whose
    ends coincide. -/
theorem between_iff_val {x lo hi : RingId} :
    x.between lo hi = true ↔
      (lo.val < hi.val ∧ lo.val < x.val ∧ x.val < hi.val) ∨
      (hi.val < lo.val ∧ (lo.val < x.val ∨ x.val < hi.val)) ∨
      (lo.val = hi.val ∧ x.val ≠ lo.val) := by
  unfold between
  rw [compare_eq_compare_val]
  rcases Nat.lt_trichotomy lo.val hi.val with h | h | h
  · rw [Nat.compare_eq_lt.2 h]
    simp only [Bool.and_eq_true, decide_eq_true_eq, lt_iff_val_lt]
    omega
  · rw [Nat.compare_eq_eq.2 h]
    simp only [bne_iff_ne, ne_eq, ← val_inj]
    omega
  · rw [Nat.compare_eq_gt.2 h]
    simp only [Bool.or_eq_true, decide_eq_true_eq, lt_iff_val_lt]
    omega

/-! ## Products and quotients -/

/-- A step's word and its carry make up the wide product. -/
theorem mulStep_eq (factor word : UInt64) (carry : Nat) :
    (mulStep factor word carry).1.toNat + (mulStep factor word carry).2 * 0x10000000000000000
      = word.toNat * factor.toNat + carry := by
  simp only [mulStep, UInt64.toNat_ofNat']
  omega

/-- A product is the point with its value, and there is none exactly where no point has it. -/
theorem mulAdd?_eq_some_iff {x y : RingId} {factor addend : UInt64} :
    x.mulAdd? factor addend = some y ↔ y.val = x.val * factor.toNat + addend.toNat := by
  rcases h0 : mulStep factor x.w0 addend.toNat with ⟨p0, c0⟩
  rcases h1 : mulStep factor x.w1 c0 with ⟨p1, c1⟩
  rcases h2 : mulStep factor x.w2 c1 with ⟨p2, c2⟩
  rcases h3 : mulStep factor x.w3 c2 with ⟨p3, c3⟩
  have hv : c3 * 2 ^ 256 + val ⟨p3, p2, p1, p0⟩ = x.val * factor.toNat + addend.toNat := by
    have e0 := mulStep_eq factor x.w0 addend.toNat
    have e1 := mulStep_eq factor x.w1 c0
    have e2 := mulStep_eq factor x.w2 c1
    have e3 := mulStep_eq factor x.w3 c2
    simp only [h0] at e0
    simp only [h1] at e1
    simp only [h2] at e2
    simp only [h3] at e3
    simp only [val, Nat.add_mul, Nat.mul_right_comm _ 0x10000000000000000]
    omega
  have hp := val_lt ⟨p3, p2, p1, p0⟩
  have hy := val_lt y
  simp only [mulAdd?, h0, h1, h2, h3]
  split
  · next hc =>
    rw [Option.some_inj]
    constructor
    · rintro rfl
      omega
    · intro h
      exact val_injective (by omega)
  · next hc =>
    constructor
    · intro h
      cases h
    · intro h
      omega

/-- Long division divides the value. -/
theorem val_divRem (x : RingId) {divisor : UInt64} (hd : 0 < divisor.toNat) :
    (x.divRem divisor).1.val = x.val / divisor.toNat := by
  obtain ⟨he, hr⟩ := divRem_val x hd
  rw [← he, Nat.mul_comm, Nat.mul_add_div hd, Nat.div_eq_of_lt hr, Nat.add_zero]

end RingOverlay.RingId
