/-!
# `RingOverlay.RingId.Basic` — points of the identifier ring

A ring of 2^256 points, read clockwise. A point is four 64-bit words, the most significant first, so
that comparing words from the left compares values.

## Contents
- **Points.** `RingId`, its value `val` as a natural number, the order of values.
- **Word arithmetic.** Addition and subtraction modulo 2^256 with carries and borrows passed from
  word to word, powers of two.
- **Arcs.** `between` (open) and `betweenIncl` (closed on the right): membership in a clockwise arc.
- **Small factors.** `mulAdd?` and `divRem`, multiplication and long division by one word.
-/

namespace RingOverlay

/-- A point of the ring: 256 bits in four words, `w3` the most significant. -/
structure RingId where
  w3 : UInt64
  w2 : UInt64
  w1 : UInt64
  w0 : UInt64
  deriving DecidableEq, Inhabited, Repr

namespace RingId

/-- The number of bits of a point, and so of routing slots of a member. -/
def bits : Nat := 256

/-- The point at the start of the ring. -/
def zero : RingId := ⟨0, 0, 0, 0⟩

/-- The point next to `zero`. -/
def one : RingId := ⟨0, 0, 0, 1⟩

/-- The last point, clockwise before `zero`. -/
def last : RingId := ⟨0xffffffffffffffff, 0xffffffffffffffff, 0xffffffffffffffff, 0xffffffffffffffff⟩

/-- The number that the four words denote, each word counting 2^64 times the next one. -/
def val (x : RingId) : Nat :=
  ((x.w3.toNat * 0x10000000000000000 + x.w2.toNat) * 0x10000000000000000 + x.w1.toNat)
    * 0x10000000000000000 + x.w0.toNat

/-- The point whose value is `n` modulo 2^256. -/
def ofNat (n : Nat) : RingId :=
  let n1 := n / 0x10000000000000000
  let n2 := n1 / 0x10000000000000000
  let n3 := n2 / 0x10000000000000000
  ⟨.ofNat n3, .ofNat n2, .ofNat n1, .ofNat n⟩

/-- Words are compared from the most significant on. -/
instance : Ord RingId where
  compare x y :=
    (compare x.w3 y.w3).then <| (compare x.w2 y.w2).then <|
      (compare x.w1 y.w1).then (compare x.w0 y.w0)

instance : LT RingId := ⟨fun x y => compare x y = .lt⟩

instance (x y : RingId) : Decidable (x < y) := inferInstanceAs (Decidable (compare x y = .lt))

/-! ## Sums and differences, word by word -/

/-- The sum of two words and a carry, with the carry out. Each of the two additions can overflow,
    never both. -/
def addCarry (a b : UInt64) (carry : Bool) : UInt64 × Bool :=
  let s := a + b
  let t := s + carry.toUInt64
  (t, decide (s < a) || decide (t < s))

/-- The difference of two words and a borrow, with the borrow out. -/
def subBorrow (a b : UInt64) (borrow : Bool) : UInt64 × Bool :=
  let s := a - b
  let t := s - borrow.toUInt64
  (t, decide (a < b) || decide (s < borrow.toUInt64))

/-- The point reached clockwise from `x` after `y` steps. -/
def add (x y : RingId) : RingId :=
  let (s0, c0) := addCarry x.w0 y.w0 false
  let (s1, c1) := addCarry x.w1 y.w1 c0
  let (s2, c2) := addCarry x.w2 y.w2 c1
  let (s3, _) := addCarry x.w3 y.w3 c2
  ⟨s3, s2, s1, s0⟩

/-- The point reached anticlockwise from `x` after `y` steps: the clockwise distance from `y` to
    `x`. -/
def sub (x y : RingId) : RingId :=
  let (s0, c0) := subBorrow x.w0 y.w0 false
  let (s1, c1) := subBorrow x.w1 y.w1 c0
  let (s2, c2) := subBorrow x.w2 y.w2 c1
  let (s3, _) := subBorrow x.w3 y.w3 c2
  ⟨s3, s2, s1, s0⟩

instance : Add RingId := ⟨add⟩
instance : Sub RingId := ⟨sub⟩

/-- The point 2^k: one bit in word `k / 64`. -/
def pow2 (k : Fin 256) : RingId :=
  let word := (1 : UInt64) <<< (UInt64.ofNat (k.val % 64))
  match k.val / 64 with
  | 0 => ⟨0, 0, 0, word⟩
  | 1 => ⟨0, 0, word, 0⟩
  | 2 => ⟨0, word, 0, 0⟩
  | _ => ⟨word, 0, 0, 0⟩

/-! ## Arcs -/

/-- Whether `x` lies strictly inside the clockwise arc from `lo` to `hi`. An arc whose ends coincide
    is the whole ring without that point. -/
def between (x lo hi : RingId) : Bool :=
  match compare lo hi with
  | .lt => decide (lo < x) && decide (x < hi)
  | .gt => decide (lo < x) || decide (x < hi)
  | .eq => x != lo

/-- Whether `x` lies on the clockwise arc from `lo` to `hi`, `hi` included. An arc whose ends
    coincide is the whole ring. -/
def betweenIncl (x lo hi : RingId) : Bool :=
  x == hi || x.between lo hi

/-! ## Multiplication and division by one word -/

/-- One step of a product: a word times `factor` plus the carry, as the low word and the carry on.
    The sum stays below 2^128 while the carry is a word. -/
def mulStep (factor : UInt64) (word : UInt64) (carry : Nat) : UInt64 × Nat :=
  let wide := word.toNat * factor.toNat + carry
  (.ofNat wide, wide / 0x10000000000000000)

/-- `x * factor + addend`, or nothing when that is not below 2^256. -/
def mulAdd? (x : RingId) (factor addend : UInt64) : Option RingId :=
  let (p0, c0) := mulStep factor x.w0 addend.toNat
  let (p1, c1) := mulStep factor x.w1 c0
  let (p2, c2) := mulStep factor x.w2 c1
  let (p3, c3) := mulStep factor x.w3 c2
  if c3 = 0 then some ⟨p3, p2, p1, p0⟩ else none

/-- One step of a long division: the remainder so far moves up by one word and takes the next word
    in. The wide value stays below 2^128 and the quotient is a word while the remainder is below
    the divisor. -/
def divStep (divisor : UInt64) (remainder : Nat) (word : UInt64) : UInt64 × Nat :=
  let wide := remainder * 0x10000000000000000 + word.toNat
  (.ofNat (wide / divisor.toNat), wide % divisor.toNat)

/-- Quotient and remainder of `x` by a word. -/
def divRem (x : RingId) (divisor : UInt64) : RingId × UInt64 :=
  let (q3, r3) := divStep divisor 0 x.w3
  let (q2, r2) := divStep divisor r3 x.w2
  let (q1, r1) := divStep divisor r2 x.w1
  let (q0, r0) := divStep divisor r1 x.w0
  (⟨q3, q2, q1, q0⟩, .ofNat r0)

/-- The wide value stays below 2^64 times the divisor, while the remainder taken in is below it. -/
theorem wide_lt {divisor r : Nat} (word : UInt64) (hr : r < divisor) :
    r * 0x10000000000000000 + word.toNat < divisor * 0x10000000000000000 := by
  calc r * 0x10000000000000000 + word.toNat
      < r * 0x10000000000000000 + 0x10000000000000000 := Nat.add_lt_add_left word.toNat_lt _
    _ = (r + 1) * 0x10000000000000000 := (Nat.succ_mul r _).symm
    _ ≤ divisor * 0x10000000000000000 := Nat.mul_le_mul_right _ hr

/-- The quotient of a step is a word. -/
theorem toNat_divStep_fst {divisor : UInt64} {r : Nat} (word : UInt64) (hr : r < divisor.toNat) :
    (divStep divisor r word).1.toNat
      = (r * 0x10000000000000000 + word.toNat) / divisor.toNat := by
  have hq := Nat.div_lt_of_lt_mul (wide_lt word hr)
  rw [divStep, UInt64.toNat_ofNat', Nat.mod_eq_of_lt hq]

/-- A step's quotient and remainder make up its wide value, while the remainder taken in is below
    the divisor. -/
theorem divStep_eq {divisor : UInt64} {r : Nat} (word : UInt64) (hr : r < divisor.toNat) :
    (divStep divisor r word).1.toNat * divisor.toNat + (divStep divisor r word).2
        = r * 0x10000000000000000 + word.toNat ∧
      (divStep divisor r word).2 < divisor.toNat := by
  have hd : 0 < divisor.toNat := Nat.lt_of_le_of_lt (Nat.zero_le r) hr
  refine ⟨?_, Nat.mod_lt _ hd⟩
  rw [toNat_divStep_fst word hr, Nat.mul_comm]
  exact Nat.div_add_mod _ _

/-- Quotient times divisor and remainder make up the value. -/
theorem divRem_val (x : RingId) {divisor : UInt64} (hd : 0 < divisor.toNat) :
    (x.divRem divisor).1.val * divisor.toNat + (x.divRem divisor).2.toNat = x.val ∧
      (x.divRem divisor).2.toNat < divisor.toNat := by
  have h3 := divStep_eq x.w3 hd
  have h2 := divStep_eq x.w2 h3.2
  have h1 := divStep_eq x.w1 h2.2
  have h0 := divStep_eq x.w0 h1.2
  have hr : (x.divRem divisor).2.toNat = (divStep divisor (divStep divisor (divStep divisor
      (divStep divisor 0 x.w3).2 x.w2).2 x.w1).2 x.w0).2 := by
    rw [divRem, UInt64.toNat_ofNat', Nat.mod_eq_of_lt (Nat.lt_trans h0.2 divisor.toNat_lt)]
  rw [hr]
  refine ⟨?_, h0.2⟩
  obtain ⟨h3, -⟩ := h3
  obtain ⟨h2, -⟩ := h2
  obtain ⟨h1, -⟩ := h1
  obtain ⟨h0, -⟩ := h0
  simp only [divRem, val, Nat.add_mul, Nat.mul_right_comm _ 0x10000000000000000]
  omega

/-- Only `zero` has the value 0. -/
theorem val_pos {x : RingId} (h : x ≠ zero) : 0 < x.val := by
  refine Nat.pos_of_ne_zero fun hv => h ?_
  have h3 : x.w3.toNat = 0 := by unfold val at hv; omega
  have h2 : x.w2.toNat = 0 := by unfold val at hv; omega
  have h1 : x.w1.toNat = 0 := by unfold val at hv; omega
  have h0 : x.w0.toNat = 0 := by unfold val at hv; omega
  cases x
  simp only [zero, mk.injEq]
  exact ⟨UInt64.toNat_inj.1 h3, UInt64.toNat_inj.1 h2, UInt64.toNat_inj.1 h1,
    UInt64.toNat_inj.1 h0⟩

/-- Dividing by a word above 1 makes every point but `zero` smaller. -/
theorem val_divRem_lt {x : RingId} {divisor : UInt64} (h : x ≠ zero) (hd : 1 < divisor.toNat) :
    (x.divRem divisor).1.val < x.val := by
  have hx := val_pos h
  have he := (divRem_val x (Nat.lt_trans Nat.zero_lt_one hd)).1
  have hm : (x.divRem divisor).1.val * 2 ≤ (x.divRem divisor).1.val * divisor.toNat :=
    Nat.mul_le_mul_left _ hd
  omega

end RingId

end RingOverlay
