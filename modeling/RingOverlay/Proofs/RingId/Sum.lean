import Mathlib.Data.Set.Function
import Mathlib.Order.Interval.Set.Defs
import RingOverlay.Proofs.RingId.Arc

/-!
# `RingId.Sum` — steps on the ring

Sums and differences of points are computed word by word, with a carry or a borrow. By value they are
taken modulo 2^256, so `x + y` is reached from `x` after as many steps clockwise as the value of `y` says,
and `x - y` counts the steps from `y` to `x`.

## Contents
- **Words.** `addCarry_eq`, `subBorrow_eq`.
- **Sums and differences.** `val_add`, `dist_add`, `val_sub`.
- **Powers of two.** `val_pow2`, `pow2_eq_ofNat`.
- **Four words as one number.** `words_count_modulo`.
-/

namespace RingOverlay.RingId

/-! ## Words -/

/-- The word and its carry make up the exact sum. -/
theorem addCarry_eq (a b : UInt64) (carry : Bool) :
    (addCarry a b carry).1.toNat + (addCarry a b carry).2.toNat * 0x10000000000000000
      = a.toNat + b.toNat + carry.toNat := by
  have ha := a.toNat_lt
  have hb := b.toNat_lt
  have hc : carry.toUInt64.toNat = carry.toNat := by cases carry <;> rfl
  have hc' : carry.toNat ≤ 1 := Bool.toNat_le carry
  simp only [addCarry, UInt64.lt_iff_toNat_lt, UInt64.toNat_add, hc]
  -- one of the two additions may overflow, and the comparisons tell which
  by_cases h1 : (a.toNat + b.toNat) % 2 ^ 64 < a.toNat
  · simp only [h1, decide_true, Bool.true_or, Bool.toNat_true]
    omega
  · by_cases h2 : ((a.toNat + b.toNat) % 2 ^ 64 + carry.toNat) % 2 ^ 64
        < (a.toNat + b.toNat) % 2 ^ 64
    · simp only [h2, decide_true, Bool.or_true, Bool.toNat_true]
      omega
    · simp only [h1, h2, decide_false, Bool.or_false, Bool.toNat_false]
      omega

/-- The word and what was borrowed make up the exact difference. -/
theorem subBorrow_eq (a b : UInt64) (borrow : Bool) :
    (subBorrow a b borrow).1.toNat + b.toNat + borrow.toNat
      = a.toNat + (subBorrow a b borrow).2.toNat * 0x10000000000000000 := by
  have ha := a.toNat_lt
  have hb := b.toNat_lt
  have hc : borrow.toUInt64.toNat = borrow.toNat := by cases borrow <;> rfl
  have hc' : borrow.toNat ≤ 1 := Bool.toNat_le borrow
  simp only [subBorrow, UInt64.lt_iff_toNat_lt, UInt64.toNat_sub, hc]
  -- one of the two subtractions may borrow, and the comparisons tell which
  by_cases h1 : a.toNat < b.toNat
  · simp only [h1, decide_true, Bool.true_or, Bool.toNat_true]
    omega
  · by_cases h2 : (2 ^ 64 - b.toNat + a.toNat) % 2 ^ 64 < borrow.toNat
    · simp only [h2, decide_true, Bool.or_true, Bool.toNat_true]
      omega
    · simp only [h1, h2, decide_false, Bool.or_false, Bool.toNat_false]
      omega

/-! ## Sums and differences -/

/-- A sum has the sum of the values, modulo the length of the ring. -/
theorem val_add (x y : RingId) : (x + y).val = (x.val + y.val) % 2 ^ 256 := by
  show (add x y).val = _
  rcases h0 : addCarry x.w0 y.w0 false with ⟨s0, c0⟩
  rcases h1 : addCarry x.w1 y.w1 c0 with ⟨s1, c1⟩
  rcases h2 : addCarry x.w2 y.w2 c1 with ⟨s2, c2⟩
  rcases h3 : addCarry x.w3 y.w3 c2 with ⟨s3, c3⟩
  have e0 := addCarry_eq x.w0 y.w0 false
  have e1 := addCarry_eq x.w1 y.w1 c0
  have e2 := addCarry_eq x.w2 y.w2 c1
  have e3 := addCarry_eq x.w3 y.w3 c2
  simp only [h0, Bool.toNat_false] at e0
  simp only [h1] at e1
  simp only [h2] at e2
  simp only [h3] at e3
  have hsum : val ⟨s3, s2, s1, s0⟩ + c3.toNat * 2 ^ 256 = x.val + y.val := by
    simp only [val]
    omega
  simp only [add, h0, h1, h2, h3]
  rw [← hsum, Nat.add_mul_mod_self_right, Nat.mod_eq_of_lt (val_lt _)]

/-- Clockwise from `x`, the point `x + y` is as far away as the value of `y`. -/
theorem dist_add (x y : RingId) : x.dist (x + y) = y.val := by
  have h := dist_spec x (x + y)
  have hx := val_lt x
  have hy := val_lt y
  rw [val_add] at h
  omega

/-- A difference counts the steps clockwise from the point taken off. -/
theorem val_sub (x y : RingId) : (x - y).val = dist y x := by
  show (sub x y).val = _
  rcases h0 : subBorrow x.w0 y.w0 false with ⟨s0, c0⟩
  rcases h1 : subBorrow x.w1 y.w1 c0 with ⟨s1, c1⟩
  rcases h2 : subBorrow x.w2 y.w2 c1 with ⟨s2, c2⟩
  rcases h3 : subBorrow x.w3 y.w3 c2 with ⟨s3, c3⟩
  have e0 := subBorrow_eq x.w0 y.w0 false
  have e1 := subBorrow_eq x.w1 y.w1 c0
  have e2 := subBorrow_eq x.w2 y.w2 c1
  have e3 := subBorrow_eq x.w3 y.w3 c2
  simp only [h0, Bool.toNat_false] at e0
  simp only [h1] at e1
  simp only [h2] at e2
  simp only [h3] at e3
  have hdiff : val ⟨s3, s2, s1, s0⟩ + y.val = x.val + c3.toNat * 2 ^ 256 := by
    simp only [val]
    omega
  -- what is borrowed at the end is the way past the start of the ring
  have hc3 := Bool.toNat_le c3
  have hs := val_lt ⟨s3, s2, s1, s0⟩
  have hx := val_lt x
  have hd := dist_spec y x
  have hd' := dist_lt y x
  simp only [sub, h0, h1, h2, h3]
  omega

/-! ## Powers of two -/

theorem val_pow2 (k : Fin 256) : (pow2 k).val = 2 ^ k.val := by
  have hk := k.isLt
  have hlt : 2 ^ (k.val % 64) < 2 ^ 64 :=
    Nat.pow_lt_pow_right (by decide) (Nat.mod_lt _ (by decide))
  have hword : ((1 : UInt64) <<< UInt64.ofNat (k.val % 64)).toNat = 2 ^ (k.val % 64) := by
    rw [UInt64.toNat_shiftLeft, UInt64.toNat_ofNat', UInt64.toNat_one, Nat.one_shiftLeft,
      Nat.mod_eq_of_lt (a := k.val % 64) (by omega), Nat.mod_mod, Nat.mod_eq_of_lt hlt]
  have hsplit : 2 ^ k.val = 2 ^ (64 * (k.val / 64)) * 2 ^ (k.val % 64) := by
    rw [← Nat.pow_add, Nat.div_add_mod]
  -- the word that holds the bit
  have hq : k.val / 64 = 0 ∨ k.val / 64 = 1 ∨ k.val / 64 = 2 ∨ k.val / 64 = 3 := by omega
  rw [hsplit]
  unfold pow2
  rcases hq with h | h | h | h
  all_goals
    rw [h]
    simp only [val, hword, UInt64.toNat_zero]
    omega

/-- The point 2^k by its value. -/
theorem pow2_eq_ofNat (k : Fin 256) : pow2 k = ofNat (2 ^ k.val) := by
  apply val_injective
  rw [val_pow2, val_ofNat, Nat.mod_eq_of_lt (Nat.pow_lt_pow_right (by decide) k.isLt)]

/-! ## Four words as one number -/

/-- Every number below 2^256 is the value of exactly one point. -/
theorem bijOn_val : Set.BijOn val Set.univ (Set.Iio (2 ^ 256)) := by
  refine ⟨fun x _ => val_lt x, fun _ _ _ _ h => val_injective h, fun n hn => ?_⟩
  obtain ⟨x, hx⟩ := exists_val_eq hn
  exact ⟨x, Set.mem_univ x, hx⟩

/-- Points are the numbers below 2^256 in their order, counted modulo 2^256: no carry and no borrow is
    lost between the words. -/
theorem words_count_modulo :
    Set.BijOn val Set.univ (Set.Iio (2 ^ 256)) ∧
    (∀ x y : RingId, compare x y = compare x.val y.val ∧ (x < y ↔ x.val < y.val)) ∧
    (∀ x y : RingId, (x + y).val = (x.val + y.val) % 2 ^ 256) ∧
    (∀ x y : RingId, ((x - y).val : Int) = ((x.val : Int) - y.val) % 2 ^ 256) ∧
    ∀ k : Fin 256, (pow2 k).val = 2 ^ k.val := by
  refine ⟨bijOn_val, fun x y => ⟨compare_eq_compare_val x y, lt_iff_val_lt⟩, val_add,
    fun x y => ?_, val_pow2⟩
  rw [val_sub, dist_eq_emod]

/-- A carry that passes a word of ones. -/
example : (⟨0, 0, 0xffffffffffffffff, 0xffffffffffffffff⟩ : RingId) + one = ⟨0, 1, 0, 0⟩ := by
  decide

end RingOverlay.RingId
