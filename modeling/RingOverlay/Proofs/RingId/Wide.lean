import Mathlib.Logic.Basic
import RingOverlay.Proofs.RingId.Value

/-!
# `RingId.Wide` — products and quotients in 128 bits

A product by one word and a long division by one word pass over the words of a point and carry a number
from each word to the next. `mulAdd?` and `divRem` carry exact numbers. In a machine the carried number and
the wide value of a step are registers of 128 bits, and half of one is put out. A carry stays below 2^64
and a remainder below the divisor, so no register overflows and both computations are the same.

## Contents
- **Passes.** `pass` and what its steps take in, `intake`. What a step keeps holds all along
  (`forall_intake`), and steps that agree make passes that agree (`pass_agree`).
- **Points as words.** `words_mulAdd?`, `divRem_eq_pass`, and the wide values `products` and `dividends`.
- **Bounds.** `products_lt`, `dividends_lt`.
- **Registers.** `Wide.mulAdd?` and `Wide.divRem`, with `Wide.mulAdd?_words` and `Wide.divRem_words`.
- **Small factors.** `small_factors_exact`.
-/

namespace RingOverlay.RingId

/-! ## Passes over words -/

section Pass

variable {σ τ : Type}

/-- A pass over words: each step turns a word and what is carried to it into a word and what is carried
    on. -/
def pass (step : UInt64 → σ → UInt64 × σ) : List UInt64 → σ → List UInt64 × σ
  | [], carried => ([], carried)
  | w :: ws, carried =>
    let (out, onward) := step w carried
    let (outs, left) := pass step ws onward
    (out :: outs, left)

/-- What the steps of a pass take in: the words, each with what is carried to it. -/
def intake (step : UInt64 → σ → UInt64 × σ) : List UInt64 → σ → List (UInt64 × σ)
  | [], _ => []
  | w :: ws, carried => (w, carried) :: intake step ws (step w carried).2

/-- The words put out, one by each step. -/
theorem pass_fst (step : UInt64 → σ → UInt64 × σ) (ws : List UInt64) (s : σ) :
    (pass step ws s).1 = (intake step ws s).map fun p => (step p.1 p.2).1 := by
  induction ws generalizing s with
  | nil => rfl
  | cons w ws ih => exact congrArg _ (ih _)

/-- What a step keeps of the carried value holds at every step. -/
theorem forall_intake {step : UInt64 → σ → UInt64 × σ} {P : σ → Prop}
    (hstep : ∀ w s, P s → P (step w s).2) (ws : List UInt64) {s : σ} (hs : P s) :
    ∀ p ∈ intake step ws s, P p.2 := by
  induction ws generalizing s with
  | nil => exact nofun
  | cons w ws ih => exact List.forall_mem_cons.2 ⟨hs, ih (hstep w s hs)⟩

/-- Steps that agree on related values make passes that put out the same words. -/
theorem pass_agree {f : UInt64 → σ → UInt64 × σ} {g : UInt64 → τ → UInt64 × τ} {R : σ → τ → Prop}
    (hstep : ∀ w s t, R s t → (f w s).1 = (g w t).1 ∧ R (f w s).2 (g w t).2) (ws : List UInt64)
    {s : σ} {t : τ} (h : R s t) :
    (pass f ws s).1 = (pass g ws t).1 ∧ R (pass f ws s).2 (pass g ws t).2 := by
  induction ws generalizing s t with
  | nil => exact ⟨rfl, h⟩
  | cons w ws ih =>
    obtain ⟨hout, honward⟩ := hstep w s t h
    obtain ⟨houts, hleft⟩ := ih honward
    exact ⟨congrArg₂ List.cons hout houts, hleft⟩

end Pass

/-! ## Points as words -/

/-- The words of a point, the most significant first. -/
def words (x : RingId) : List UInt64 := [x.w3, x.w2, x.w1, x.w0]

/-- A product is a pass from the least significant word on. It has a result where nothing is left to be
    carried. -/
theorem words_mulAdd? (x : RingId) (factor addend : UInt64) :
    (x.mulAdd? factor addend).map words =
      if (pass (mulStep factor) x.words.reverse addend.toNat).2 = 0 then
        some (pass (mulStep factor) x.words.reverse addend.toNat).1.reverse
      else none :=
  apply_ite (Option.map words) _ _ _

/-- A division is a pass from the most significant word on. -/
theorem divRem_eq_pass (x : RingId) (divisor : UInt64) :
    (x.divRem divisor).1.words = (pass (fun w r => divStep divisor r w) x.words 0).1 ∧
      (x.divRem divisor).2 = .ofNat (pass (fun w r => divStep divisor r w) x.words 0).2 :=
  ⟨rfl, rfl⟩

/-- The wide values of a product, from the least significant word on. -/
def products (x : RingId) (factor addend : UInt64) : List Nat :=
  (intake (mulStep factor) x.words.reverse addend.toNat).map fun p =>
    p.1.toNat * factor.toNat + p.2

/-- The wide values of a division, from the most significant word on. -/
def dividends (x : RingId) (divisor : UInt64) : List Nat :=
  (intake (fun w r => divStep divisor r w) x.words 0).map fun p =>
    p.2 * 0x10000000000000000 + p.1.toNat

/-! ## Bounds -/

/-- A product of two words leaves room for one more word in 128 bits. -/
theorem product_lt (factor word : UInt64) {carry : Nat} (hc : carry < 2 ^ 64) :
    word.toNat * factor.toNat + carry < 2 ^ 128 := by
  have hf := factor.toNat_lt
  have hw := word.toNat_lt
  calc word.toNat * factor.toNat + carry
      ≤ (2 ^ 64 - 1) * (2 ^ 64 - 1) + (2 ^ 64 - 1) :=
        Nat.add_le_add (Nat.mul_le_mul (by omega) (by omega)) (by omega)
    _ < 2 ^ 128 := by decide

/-- What is carried on from a product is below 2^64 again. -/
theorem carry_lt (factor word : UInt64) {carry : Nat} (hc : carry < 2 ^ 64) :
    (mulStep factor word carry).2 < 2 ^ 64 := by
  have h := product_lt factor word hc
  simp only [mulStep]
  omega

theorem dividend_lt (word : UInt64) {divisor : UInt64} {remainder : Nat}
    (hr : remainder < divisor.toNat) : remainder * 0x10000000000000000 + word.toNat < 2 ^ 128 := by
  have h := wide_lt word hr
  have hd := divisor.toNat_lt
  omega

/-- Every number carried in a product is below 2^64. -/
theorem carries_lt (factor : UInt64) {carry : Nat} (hc : carry < 2 ^ 64) (ws : List UInt64) :
    ∀ p ∈ intake (mulStep factor) ws carry, p.2 < 2 ^ 64 := by
  apply forall_intake (P := (· < 2 ^ 64)) _ ws hc
  intro w n hn
  exact carry_lt factor w hn

/-- Every remainder of a division is below the divisor. -/
theorem remainders_lt {divisor : UInt64} (hd : 0 < divisor.toNat) (ws : List UInt64) :
    ∀ p ∈ intake (fun w r => divStep divisor r w) ws 0, p.2 < divisor.toNat := by
  apply forall_intake (P := (· < divisor.toNat)) _ ws hd
  intro w r hr
  exact (divStep_eq w hr).2

/-- No wide value of a product needs more than 128 bits. -/
theorem products_lt (x : RingId) (factor addend : UInt64) :
    ∀ wide ∈ x.products factor addend, wide < 2 ^ 128 := by
  intro wide hwide
  obtain ⟨p, hp, rfl⟩ := List.mem_map.1 hwide
  exact product_lt factor p.1 (carries_lt factor addend.toNat_lt x.words.reverse p hp)

/-- No wide value of a division needs more than 128 bits, and no quotient more than 64. -/
theorem dividends_lt (x : RingId) {divisor : UInt64} (hd : 0 < divisor.toNat) :
    ∀ wide ∈ x.dividends divisor, wide < 2 ^ 128 ∧ wide / divisor.toNat < 2 ^ 64 := by
  intro wide hwide
  obtain ⟨p, hp, rfl⟩ := List.mem_map.1 hwide
  have hr := remainders_lt hd x.words p hp
  exact ⟨dividend_lt p.1 hr, Nat.div_lt_of_lt_mul (wide_lt p.1 hr)⟩

/-- The words of a product are the lower halves of the wide values. -/
theorem words_of_mulAdd? {x y : RingId} {factor addend : UInt64}
    (h : x.mulAdd? factor addend = some y) :
    y.words.reverse.map UInt64.toNat = (x.products factor addend).map (· % 2 ^ 64) := by
  have hy := words_mulAdd? x factor addend
  rw [h, Option.map_some] at hy
  split at hy
  · rw [Option.some.inj hy, List.reverse_reverse, pass_fst, products, List.map_map, List.map_map]
    apply List.map_congr_left
    intro p _
    simp only [Function.comp_apply, mulStep, UInt64.toNat_ofNat']
  · cases hy

/-- The words of a quotient are the quotients of the wide values. -/
theorem words_divRem (x : RingId) {divisor : UInt64} (hd : 0 < divisor.toNat) :
    (x.divRem divisor).1.words.map UInt64.toNat = (x.dividends divisor).map (· / divisor.toNat) := by
  rw [(divRem_eq_pass x divisor).1, pass_fst, dividends, List.map_map, List.map_map]
  apply List.map_congr_left
  intro p hp
  rw [Function.comp_apply, Function.comp_apply, toNat_divStep_fst p.1 (remainders_lt hd x.words p hp)]

/-! ## Registers -/

/-- A register of 128 bits. -/
abbrev Wide := BitVec 128

namespace Wide

/-- A word in a register, with zeros in the upper half. -/
def ofWord (w : UInt64) : Wide := w.toBitVec.setWidth 128

/-- The lower half of a register. -/
def low (b : Wide) : UInt64 := .ofBitVec (b.setWidth 64)

theorem toNat_ofWord (w : UInt64) : (ofWord w).toNat = w.toNat := by
  have hw : w.toBitVec.toNat < 2 ^ 128 := Nat.lt_trans w.toNat_lt (by decide)
  rw [ofWord, BitVec.toNat_setWidth, Nat.mod_eq_of_lt hw, UInt64.toNat_toBitVec]

theorem low_eq (b : Wide) : low b = .ofNat b.toNat := by
  apply UInt64.toNat_inj.1
  rw [low, UInt64.toNat_ofBitVec, BitVec.toNat_setWidth, UInt64.toNat_ofNat']

/-- A step of a product. What does not fit into the register is lost. -/
def mulStep (factor word : UInt64) (carry : Wide) : UInt64 × Wide :=
  let wide := ofWord word * ofWord factor + carry
  (low wide, wide >>> 64)

/-- A step of a long division. What is shifted out of the register is lost, and so is the upper half of
    the quotient. -/
def divStep (divisor word : UInt64) (remainder : Wide) : UInt64 × Wide :=
  let wide := remainder <<< 64 ||| ofWord word
  (low (wide / ofWord divisor), wide % ofWord divisor)

/-- Words times `factor` plus `addend`, or nothing where something is left to be carried. -/
def mulAdd? (ws : List UInt64) (factor addend : UInt64) : Option (List UInt64) :=
  let (outs, carry) := pass (mulStep factor) ws.reverse (ofWord addend)
  if carry = 0 then some outs.reverse else none

/-- Quotient and remainder of words by `divisor`. -/
def divRem (ws : List UInt64) (divisor : UInt64) : List UInt64 × UInt64 :=
  let (outs, remainder) := pass (divStep divisor) ws 0
  (outs, low remainder)

/-- The relation of the two computations: a register holds the exact number, which is below a bound. -/
structure Holds (bound : Nat) (b : Wide) (n : Nat) : Prop where
  toNat_eq : b.toNat = n
  lt : n < bound

theorem Holds.eq_zero_iff {bound n : Nat} {b : Wide} (h : Holds bound b n) : b = 0 ↔ n = 0 := by
  rw [← h.toNat_eq, ← BitVec.toNat_inj]
  rfl

theorem mulStep_agree (factor word : UInt64) {b : Wide} {carry : Nat} (h : Holds (2 ^ 64) b carry) :
    (mulStep factor word b).1 = (RingId.mulStep factor word carry).1 ∧
      Holds (2 ^ 64) (mulStep factor word b).2 (RingId.mulStep factor word carry).2 := by
  have hwide : (ofWord word * ofWord factor + b).toNat = word.toNat * factor.toNat + carry := by
    rw [BitVec.toNat_add, BitVec.toNat_mul, toNat_ofWord, toNat_ofWord, h.toNat_eq, Nat.mod_add_mod,
      Nat.mod_eq_of_lt (product_lt factor word h.lt)]
  refine ⟨?_, ?_, carry_lt factor word h.lt⟩
  · rw [mulStep, low_eq, hwide]
    rfl
  · rw [mulStep, BitVec.toNat_ushiftRight, hwide, Nat.shiftRight_eq_div_pow]
    rfl

theorem divStep_agree {divisor : UInt64} (word : UInt64) {b : Wide} {remainder : Nat}
    (h : Holds divisor.toNat b remainder) :
    (divStep divisor word b).1 = (RingId.divStep divisor remainder word).1 ∧
      Holds divisor.toNat (divStep divisor word b).2 (RingId.divStep divisor remainder word).2 := by
  have hwide : (b <<< 64 ||| ofWord word).toNat = remainder * 0x10000000000000000 + word.toNat := by
    have hlt : remainder * 2 ^ 64 < 2 ^ 128 :=
      Nat.lt_of_le_of_lt (Nat.le_add_right _ _) (dividend_lt word h.lt)
    -- the word stands where the shift has left zeros, so joining the bits is an addition
    rw [BitVec.toNat_or, BitVec.toNat_shiftLeft, toNat_ofWord, h.toNat_eq, Nat.shiftLeft_eq,
      Nat.mod_eq_of_lt hlt, ← Nat.shiftLeft_eq, ← Nat.shiftLeft_add_eq_or_of_lt word.toNat_lt,
      Nat.shiftLeft_eq]
  refine ⟨?_, ?_, (divStep_eq word h.lt).2⟩
  · rw [divStep, low_eq, BitVec.toNat_udiv, hwide, toNat_ofWord]
    rfl
  · rw [divStep, BitVec.toNat_umod, hwide, toNat_ofWord]
    rfl

/-- A product of a point, computed in registers. -/
theorem mulAdd?_words (x : RingId) (factor addend : UInt64) :
    mulAdd? x.words factor addend = (x.mulAdd? factor addend).map words := by
  have hstart : Holds (2 ^ 64) (ofWord addend) addend.toNat := ⟨toNat_ofWord addend, addend.toNat_lt⟩
  obtain ⟨houts, hcarry⟩ := pass_agree (R := Holds (2 ^ 64)) (fun w _ _ => mulStep_agree factor w)
    x.words.reverse hstart
  rw [words_mulAdd?, ← houts]
  exact if_congr hcarry.eq_zero_iff rfl rfl

/-- Quotient and remainder of a point, computed in registers. -/
theorem divRem_words (x : RingId) {divisor : UInt64} (hd : 0 < divisor.toNat) :
    divRem x.words divisor = ((x.divRem divisor).1.words, (x.divRem divisor).2) := by
  have hstart : Holds divisor.toNat 0 0 := ⟨rfl, hd⟩
  obtain ⟨houts, hrest⟩ := pass_agree (R := Holds divisor.toNat)
    (g := fun w r => RingId.divStep divisor r w) (fun w _ _ => divStep_agree w) x.words hstart
  rw [(divRem_eq_pass x divisor).1, (divRem_eq_pass x divisor).2, ← houts, ← hrest.toNat_eq, ← low_eq]
  rfl

end Wide

/-! ## Small factors -/

/-- A product has a result exactly where a point has its value. -/
theorem isSome_mulAdd? {x : RingId} {factor addend : UInt64} :
    (x.mulAdd? factor addend).isSome ↔ x.val * factor.toNat + addend.toNat < 2 ^ 256 := by
  rw [Option.isSome_iff_exists]
  simp only [mulAdd?_eq_some_iff]
  constructor
  · rintro ⟨y, hy⟩
    exact hy ▸ val_lt y
  · exact exists_val_eq

/-- Products and quotients by one word are exact, and registers of 128 bits are enough for them. There is a
    product where its value is below 2^256, and it has that value; a division by a word other than 0
    gives quotient and remainder of the value. No wide value on the way reaches 2^128. What is put out is
    the lower half of each wide value of a product, and the whole quotient of each one of a division;
    computed in registers, both come out the same. -/
theorem small_factors_exact :
    (∀ (x : RingId) (factor addend : UInt64),
      ((x.mulAdd? factor addend).isSome ↔ x.val * factor.toNat + addend.toNat < 2 ^ 256) ∧
      (∀ y, x.mulAdd? factor addend = some y →
        y.val = x.val * factor.toNat + addend.toNat ∧
        y.words.reverse.map UInt64.toNat = (x.products factor addend).map (· % 2 ^ 64)) ∧
      (∀ wide ∈ x.products factor addend, wide < 2 ^ 128) ∧
      Wide.mulAdd? x.words factor addend = (x.mulAdd? factor addend).map words) ∧
    ∀ (x : RingId) (divisor : UInt64), divisor ≠ 0 →
      (x.divRem divisor).1.val = x.val / divisor.toNat ∧
      (x.divRem divisor).2.toNat = x.val % divisor.toNat ∧
      (∀ wide ∈ x.dividends divisor, wide < 2 ^ 128 ∧ wide / divisor.toNat < 2 ^ 64) ∧
      (x.divRem divisor).1.words.map UInt64.toNat = (x.dividends divisor).map (· / divisor.toNat) ∧
      Wide.divRem x.words divisor = ((x.divRem divisor).1.words, (x.divRem divisor).2) := by
  constructor
  · intro x factor addend
    refine ⟨isSome_mulAdd?, ?_, products_lt x factor addend, Wide.mulAdd?_words x factor addend⟩
    intro y hy
    exact ⟨mulAdd?_eq_some_iff.1 hy, words_of_mulAdd? hy⟩
  · intro x divisor hne
    have hd : 0 < divisor.toNat := Nat.pos_of_ne_zero fun h => hne (UInt64.toNat_inj.1 h)
    obtain ⟨he, hr⟩ := divRem_val x hd
    have hrem : (x.divRem divisor).2.toNat = x.val % divisor.toNat := by
      rw [← he, Nat.mul_add_mod', Nat.mod_eq_of_lt hr]
    exact ⟨val_divRem x hd, hrem, dividends_lt x hd, words_divRem x hd, Wide.divRem_words x hd⟩

/-- The greatest words: a product that is too large, one that just fits, and wide values just below
    2^128. -/
theorem small_factors_exact_ones :
    last.w0 ≠ 0 ∧
      ¬last.val * last.w0.toNat + last.w0.toNat < 2 ^ 256 ∧
      ¬(last.mulAdd? last.w0 last.w0).isSome ∧
      mulAdd? ⟨0, last.w0, last.w0, last.w0⟩ last.w0 last.w0 = some ⟨last.w0, 0, 0, 0⟩ ∧
      val ⟨last.w0, 0, 0, 0⟩
        = val ⟨0, last.w0, last.w0, last.w0⟩ * last.w0.toNat + last.w0.toNat ∧
      2 ^ 128 - 2 ^ 64 ∈ last.products last.w0 last.w0 ∧ 2 ^ 128 - 2 ^ 64 < 2 ^ 128 ∧
      2 ^ 128 - 2 ^ 64 - 1 ∈ dividends ⟨last.w0 - 1, last.w0, last.w0, last.w0⟩ last.w0 ∧
      2 ^ 128 - 2 ^ 64 - 1 < 2 ^ 128 ∧ (2 ^ 128 - 2 ^ 64 - 1) / last.w0.toNat < 2 ^ 64 := by
  have hne : last.w0 ≠ 0 := by decide
  have hlarge : ¬last.val * last.w0.toNat + last.w0.toNat < 2 ^ 256 := by decide
  have hfits : mulAdd? ⟨0, last.w0, last.w0, last.w0⟩ last.w0 last.w0 = some ⟨last.w0, 0, 0, 0⟩ := by
    decide
  have hproduct : 2 ^ 128 - 2 ^ 64 ∈ last.products last.w0 last.w0 := by decide
  have hdividend :
      2 ^ 128 - 2 ^ 64 - 1 ∈ dividends ⟨last.w0 - 1, last.w0, last.w0, last.w0⟩ last.w0 := by decide
  obtain ⟨hsome, -, hproducts, -⟩ := small_factors_exact.1 last last.w0 last.w0
  obtain ⟨-, -, hdividends, -⟩ := small_factors_exact.2 _ _ hne
  exact ⟨hne, hlarge, mt hsome.1 hlarge, hfits, ((small_factors_exact.1 _ _ _).2.1 _ hfits).1,
    hproduct, hproducts _ hproduct, hdividend, hdividends _ hdividend⟩

end RingOverlay.RingId
