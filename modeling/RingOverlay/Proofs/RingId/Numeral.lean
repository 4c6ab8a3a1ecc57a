import Mathlib.Data.List.Basic
import Mathlib.Data.List.Induction
import Mathlib.Data.Nat.Digits.Defs
import RingOverlay.Proofs.RingId.Decimal

/-!
# `RingId.Numeral` — which texts denote which points

A numeral is a row of ASCII digits, and its value counts each place ten times the next one. Reading takes
exactly the numerals with a value below 2^256 and gives every other text one of three reasons, the first one
that is met. Writing gives the one numeral of the value without superfluous zeros, so the texts of a point
are its written form and that form behind zeros.

## Contents
- **Numerals.** `Text.IsNumeral`, `Text.numeralValue` and their laws.
- **Numerals without superfluous zeros.** `Text.IsCanonical`, `Text.digits_numeralValue`.
- **Reading.** `Overruns`, `ofDecimal_eq_ok_iff`, `ofDecimal_eq_error_iff`, `ofDecimal_exact`.
- **Writing.** `leftAfter` and the divisions, `decimal_canonical`.
-/

namespace RingOverlay

/-! ## Numerals -/

namespace Text

/-- A decimal numeral: ASCII digits, at least one. -/
structure IsNumeral (cs : List Char) : Prop where
  ne_nil : cs ≠ []
  isDigit : ∀ c ∈ cs, c.isDigit

/-- The number that digits denote, each place counting ten times the next one. -/
def numeralValue (cs : List Char) : Nat :=
  Nat.ofDigits 10 (cs.reverse.map fun c => c.toNat - '0'.toNat)

theorem numeralValue_concat (cs : List Char) (c : Char) :
    numeralValue (cs ++ [c]) = numeralValue cs * 10 + (c.toNat - '0'.toNat) := by
  rw [numeralValue, List.reverse_concat, List.map_cons, Nat.ofDigits_cons, ← numeralValue]
  omega

/-- Zeros in front change no value. -/
theorem numeralValue_zeros (k : Nat) (cs : List Char) :
    numeralValue (List.replicate k '0' ++ cs) = numeralValue cs := by
  rw [numeralValue, List.reverse_append, List.map_append, List.reverse_replicate,
    List.map_replicate, Nat.sub_self, Nat.ofDigits_append_replicate_zero, ← numeralValue]

theorem IsNumeral.zeros_append {cs : List Char} (h : IsNumeral cs) (k : Nat) :
    IsNumeral (List.replicate k '0' ++ cs) := by
  refine ⟨List.append_ne_nil_of_right_ne_nil _ h.ne_nil, ?_⟩
  rw [List.forall_mem_append]
  refine ⟨fun c hc => ?_, h.isDigit⟩
  rw [List.eq_of_mem_replicate hc]
  rfl

/-- Reading digits from the left counts their places. -/
theorem decimalFrom_zero {cs : List Char} (h : ∀ c ∈ cs, c.isDigit) :
    decimalFrom 0 cs = numeralValue cs := by
  induction cs using List.reverseRecOn with
  | nil => rfl
  | append_singleton cs c ih =>
    rw [List.forall_mem_append, List.forall_mem_singleton] at h
    rw [decimalFrom_append, decimalFrom_cons, decimalFrom_nil, numeralValue_concat, ih h.1,
      digitValue?_of_isDigit h.2, Option.getD_some]

theorem isNumeral_digits (n : Nat) : IsNumeral (digits n) :=
  ⟨digits_ne_nil n, fun _ => isDigit_of_mem_digits⟩

theorem numeralValue_digits (n : Nat) : numeralValue (digits n) = n := by
  rw [← decimalFrom_zero (isNumeral_digits n).isDigit, decimalFrom_digits]

/-! ## Numerals without superfluous zeros -/

/-- A numeral without superfluous zeros in front. -/
structure IsCanonical (cs : List Char) : Prop extends IsNumeral cs where
  eq_of_head : cs.head? = some '0' → cs = ['0']

theorem digitChar_eq_zero_iff {d : Nat} : digitChar d = '0' ↔ d % 10 = 0 := by
  have h : ∀ r < 10, Char.ofNat (48 + r) = '0' ↔ r = 0 := by decide
  exact h _ (Nat.mod_lt d (by decide))

theorem digits_zero : digits 0 = ['0'] := by
  rw [digits, if_pos (by decide)]
  rfl

theorem head?_digits_ne {n : Nat} (hn : 0 < n) : (digits n).head? ≠ some '0' := by
  induction n using digits.induct with
  | case1 n h =>
    rw [digits, if_pos h, List.head?_cons, ne_eq, Option.some_inj, digitChar_eq_zero_iff]
    omega
  | case2 n h ih =>
    rw [digits, if_neg h, List.head?_append_of_ne_nil _ (digits_ne_nil _)]
    exact ih (by omega)

theorem isCanonical_digits (n : Nat) : IsCanonical (digits n) := by
  refine ⟨isNumeral_digits n, fun h => ?_⟩
  rcases Nat.eq_zero_or_pos n with rfl | hn
  · exact digits_zero
  · exact absurd h (head?_digits_ne hn)

theorem digitChar_digit {c : Char} (h : c.isDigit) : digitChar (c.toNat - '0'.toNat) = c := by
  obtain ⟨h0, h9⟩ := Char.isDigit_iff_toNat.1 h
  have e0 : '0'.toNat = 48 := by decide
  have e9 : '9'.toNat = 57 := by decide
  rw [digitChar, show 48 + (c.toNat - '0'.toNat) % 10 = c.toNat by omega, Char.ofNat_toNat]

/-- There is one numeral without superfluous zeros for each number. -/
theorem digits_numeralValue {cs : List Char} (h : IsCanonical cs) :
    digits (numeralValue cs) = cs := by
  induction cs using List.reverseRecOn with
  | nil => exact absurd rfl h.ne_nil
  | append_singleton cs c ih =>
    have hd := h.isDigit
    rw [List.forall_mem_append, List.forall_mem_singleton] at hd
    obtain ⟨h0, h9⟩ := Char.isDigit_iff_toNat.1 hd.2
    have e9 : '9'.toNat = '0'.toNat + 9 := by decide
    rw [numeralValue_concat]
    by_cases hcs : cs = []
    · subst hcs
      rw [show numeralValue [] = 0 from rfl, Nat.zero_mul, Nat.zero_add, digits,
        if_pos (by omega), digitChar_digit hd.2, List.nil_append]
    · -- a zero at the head of the rest would be one at the head of all
      have hhead : cs.head? ≠ some '0' := by
        intro hz
        have hlen := congrArg List.length
          (h.eq_of_head ((List.head?_append_of_ne_nil cs hcs).trans hz))
        rw [List.length_append] at hlen
        exact hcs (List.eq_nil_of_length_eq_zero (Nat.add_right_cancel hlen))
      have hrest := ih ⟨⟨hcs, hd.1⟩, fun hz => absurd hz hhead⟩
      have hpos : 0 < numeralValue cs := by
        refine Nat.pos_of_ne_zero fun hz => hhead ?_
        rw [← hrest, hz, digits_zero, List.head?_cons]
      rw [digits, if_neg (by omega), digitChar_mul_add, digitChar_digit hd.2,
        show (numeralValue cs * 10 + (c.toNat - '0'.toNat)) / 10 = numeralValue cs by omega, hrest]

/-- A numeral is the one without superfluous zeros, behind zeros. -/
theorem IsNumeral.eq_zeros_append {cs : List Char} (h : IsNumeral cs) :
    ∃ k, cs = List.replicate k '0' ++ digits (numeralValue cs) := by
  induction cs with
  | nil => exact absurd rfl h.ne_nil
  | cons c cs ih =>
    by_cases hz : c = '0' ∧ cs ≠ []
    · obtain ⟨rfl, hne⟩ := hz
      obtain ⟨k, hk⟩ := ih ⟨hne, fun d hd => h.isDigit d (List.mem_cons_of_mem _ hd)⟩
      have hv : numeralValue ('0' :: cs) = numeralValue cs := numeralValue_zeros 1 cs
      exact ⟨k + 1, by rw [hv, List.replicate_succ, List.cons_append, ← hk]⟩
    · refine ⟨0, (digits_numeralValue ⟨h, fun hc => ?_⟩).symm⟩
      rw [List.head?_cons, Option.some_inj] at hc
      rw [not_and_not_right] at hz
      rw [hc, hz hc]

end Text

namespace RingId

open Text

/-! ## Reading -/

/-- Some digits in front of the first other character already denote a number beyond the ring. -/
def Overruns (cs : List Char) : Prop :=
  ∃ ds, ds <+: cs ∧ (∀ c ∈ ds, c.isDigit) ∧ 2 ^ 256 ≤ numeralValue ds

/-- All digits in front tell whether some do. -/
theorem overruns_iff {cs : List Char} :
    Overruns cs ↔ 2 ^ 256 ≤ decimalFrom 0 (cs.takeWhile Char.isDigit) := by
  constructor
  · rintro ⟨ds, ⟨rest, rfl⟩, hd, h⟩
    rw [List.takeWhile_append_of_pos hd, decimalFrom_append, decimalFrom_zero hd]
    exact Nat.le_trans h (le_decimalFrom _ _)
  · intro h
    have hd : ∀ c ∈ cs.takeWhile Char.isDigit, c.isDigit := fun c hc => List.mem_takeWhile_imp hc
    exact ⟨_, List.takeWhile_prefix _, hd, decimalFrom_zero hd ▸ h⟩

theorem ofDecimal_of_overruns {text : String} (h : Overruns text.toList) :
    ofDecimal text = .error (.tooLarge text) := by
  have h := overruns_iff.1 h
  have hne : text ≠ "" := by
    rintro rfl
    exact absurd h (by decide)
  rw [ofDecimal_eq, if_neg hne, if_pos h]

theorem ofDecimal_of_not_isDigit {text : String} {c : Char} (hc : c ∈ text.toList)
    (hd : ¬c.isDigit) (h : ¬Overruns text.toList) : ofDecimal text = .error (.notDecimal text) := by
  have hne : text ≠ "" := by
    rintro rfl
    cases hc
  have hall : ¬text.toList.all Char.isDigit := fun ha => hd (List.all_eq_true.1 ha c hc)
  rw [ofDecimal_eq, if_neg hne, if_neg (mt overruns_iff.2 h), if_neg hall]

/-- The four kinds of texts. -/
theorem text_cases (text : String) :
    text = "" ∨ Overruns text.toList ∨
      (IsNumeral text.toList ∧ numeralValue text.toList < 2 ^ 256) ∨
      (¬Overruns text.toList ∧ ∃ c ∈ text.toList, ¬c.isDigit) := by
  by_cases hne : text = ""
  · exact .inl hne
  by_cases ho : Overruns text.toList
  · exact .inr (.inl ho)
  by_cases hd : ∀ c ∈ text.toList, c.isDigit
  · refine .inr (.inr (.inl ⟨⟨fun h => hne (String.toList_eq_nil_iff.1 h), hd⟩, ?_⟩))
    exact Nat.lt_of_not_le fun h => ho ⟨_, List.prefix_rfl, hd, h⟩
  · obtain ⟨c, hc⟩ := not_forall.1 hd
    exact .inr (.inr (.inr ⟨ho, c, Classical.not_imp.1 hc⟩))

theorem ofDecimal_of_isNumeral {text : String} {x : RingId} (h : IsNumeral text.toList)
    (hx : numeralValue text.toList = x.val) : ofDecimal text = .ok x := by
  refine ofDecimal_of_digits ?_ h.isDigit ((decimalFrom_zero h.isDigit).trans hx)
  rintro rfl
  exact h.ne_nil rfl

/-- The numerals of a point. -/
theorem ofDecimal_eq_ok_iff {text : String} {x : RingId} :
    ofDecimal text = .ok x ↔ IsNumeral text.toList ∧ numeralValue text.toList = x.val := by
  refine ⟨fun h => ?_, fun h => ofDecimal_of_isNumeral h.1 h.2⟩
  rcases text_cases text with rfl | ho | ⟨hn, hlt⟩ | ⟨ho, c, hc, hd⟩
  · cases h
  · rw [ofDecimal_of_overruns ho] at h
    cases h
  · obtain ⟨y, hy⟩ := exists_val_eq hlt
    rw [ofDecimal_of_isNumeral hn hy.symm, Except.ok.injEq] at h
    exact ⟨hn, h ▸ hy.symm⟩
  · rw [ofDecimal_of_not_isDigit hc hd ho] at h
    cases h

/-- The texts that are refused, each with its reason. -/
theorem ofDecimal_eq_error_iff {text : String} {e : ReadError} :
    ofDecimal text = .error e ↔
      (text = "" ∧ e = .empty) ∨ (Overruns text.toList ∧ e = .tooLarge text) ∨
      (¬Overruns text.toList ∧ (∃ c ∈ text.toList, ¬c.isDigit) ∧ e = .notDecimal text) := by
  constructor
  · intro h
    rcases text_cases text with rfl | ho | ⟨hn, hlt⟩ | ⟨ho, c, hc, hd⟩
    · cases h
      exact .inl ⟨rfl, rfl⟩
    · rw [ofDecimal_of_overruns ho] at h
      cases h
      exact .inr (.inl ⟨ho, rfl⟩)
    · obtain ⟨y, hy⟩ := exists_val_eq hlt
      rw [ofDecimal_of_isNumeral hn hy.symm] at h
      cases h
    · rw [ofDecimal_of_not_isDigit hc hd ho] at h
      cases h
      exact .inr (.inr ⟨ho, ⟨c, hc, hd⟩, rfl⟩)
  · rintro (⟨rfl, rfl⟩ | ⟨ho, rfl⟩ | ⟨ho, ⟨c, hc, hd⟩, rfl⟩)
    · rfl
    · exact ofDecimal_of_overruns ho
    · exact ofDecimal_of_not_isDigit hc hd ho

theorem mapError_eq_error_iff {ε ε' α : Type} {f : ε → ε'} {r : Except ε α} {e' : ε'} :
    r.mapError f = .error e' ↔ ∃ e, r = .error e ∧ f e = e' := by
  cases r with
  | ok a =>
    refine iff_of_false nofun ?_
    rintro ⟨e, h, -⟩
    cases h
  | error e =>
    simp only [Except.mapError, Except.error.injEq, exists_eq_left']

/-- Reading is exact: a text is read as a point if and only if it is a numeral with the value of that point,
    which exists for the numerals below 2^256. The empty text, digits that reach 2^256 and a character that
    is no digit are the reasons to refuse a text, and of the last two the one that is met first counts. -/
theorem ofDecimal_exact (text : String) :
    (∀ x, ofDecimal text = .ok x ↔ IsNumeral text.toList ∧ numeralValue text.toList = x.val) ∧
    ((∃ x, ofDecimal text = .ok x) ↔
      IsNumeral text.toList ∧ numeralValue text.toList < 2 ^ 256) ∧
    ∀ fault, (ofDecimal text).mapError RingFault.ofReadError = .error fault ↔
      (text = "" ∧ fault = .invalidId "empty identifier") ∨
      (Overruns text.toList ∧ fault = .invalidId ("'" ++ text ++ "' exceeds 2^256")) ∨
      (¬Overruns text.toList ∧ (∃ c ∈ text.toList, ¬c.isDigit) ∧
        fault = .invalidId ("'" ++ text ++ "' is not decimal")) := by
  refine ⟨fun x => ofDecimal_eq_ok_iff, ⟨?_, ?_⟩, fun fault => ?_⟩
  · rintro ⟨x, hx⟩
    obtain ⟨hn, hv⟩ := ofDecimal_eq_ok_iff.1 hx
    exact ⟨hn, hv ▸ val_lt x⟩
  · rintro ⟨hn, hlt⟩
    obtain ⟨x, hx⟩ := exists_val_eq hlt
    exact ⟨x, ofDecimal_of_isNumeral hn hx.symm⟩
  · rw [mapError_eq_error_iff]
    simp only [ofDecimal_eq_error_iff]
    constructor
    · rintro ⟨e, ⟨ht, rfl⟩ | ⟨ho, rfl⟩ | ⟨ho, hc, rfl⟩, rfl⟩
      · exact .inl ⟨ht, rfl⟩
      · exact .inr (.inl ⟨ho, rfl⟩)
      · exact .inr (.inr ⟨ho, hc, rfl⟩)
    · rintro (⟨ht, rfl⟩ | ⟨ho, rfl⟩ | ⟨ho, hc, rfl⟩)
      · exact ⟨_, .inl ⟨ht, rfl⟩, rfl⟩
      · exact ⟨_, .inr (.inl ⟨ho, rfl⟩), rfl⟩
      · exact ⟨_, .inr (.inr ⟨ho, hc, rfl⟩), rfl⟩

/-- Digits beyond the ring count before the letter behind them. -/
example : (List.replicate 78 '9' ++ ['x']).foldlM (readDigit "9..x") zero
    = .error (.tooLarge "9..x") := by decide +kernel

/-! ## Writing -/

/-- What is left of a point when `n` groups of digits are taken off. -/
def leftAfter (x : RingId) (n : Nat) : RingId := (fun y => (y.divRem chunk).1)^[n] x

theorem leftAfter_zero (x : RingId) : leftAfter x 0 = x := rfl

theorem leftAfter_succ (x : RingId) (n : Nat) : leftAfter x (n + 1) = leftAfter (x.divRem chunk).1 n := rfl

theorem val_leftAfter (x : RingId) (n : Nat) : (leftAfter x n).val = x.val / chunk.toNat ^ n := by
  induction n generalizing x with
  | zero => rw [leftAfter_zero, Nat.pow_zero, Nat.div_one]
  | succ n ih => rw [leftAfter_succ, ih, val_divRem x (by decide), Nat.div_div_eq_div_mul, Nat.pow_succ']

/-- The division stops as soon as nothing is left. -/
theorem leftAfter_eq_zero_iff {x : RingId} {n : Nat} : leftAfter x n = zero ↔ x.chunks.length ≤ n := by
  induction x using chunks.induct generalizing n with
  | case1 =>
    rw [chunks_zero, ← val_inj, val_leftAfter, val_zero, Nat.zero_div]
    exact iff_of_true rfl (Nat.zero_le n)
  | case2 x hx _ ih =>
    rw [chunks_of_ne hx, List.length_cons]
    cases n with
    | zero => exact iff_of_false hx (Nat.not_succ_le_zero _)
    | succ n => rw [leftAfter_succ, ih, Nat.succ_le_succ_iff]

/-- Five groups of digits are enough for every point. -/
theorem length_chunks_le (x : RingId) : x.chunks.length ≤ 5 := by
  rw [← leftAfter_eq_zero_iff, ← val_inj, val_leftAfter, val_zero]
  exact Nat.div_eq_of_lt (Nat.lt_trans (val_lt x) (by decide))

/-- The groups of digits are the remainders of the divisions. -/
theorem chunks_eq_map (x : RingId) :
    x.chunks = (List.range x.chunks.length).map fun n => ((leftAfter x n).divRem chunk).2 := by
  induction x using chunks.induct with
  | case1 =>
    rw [chunks_zero]
    rfl
  | case2 x hx _ ih =>
    rw [chunks_of_ne hx, List.length_cons, List.range_succ_eq_map, List.map_cons, List.map_map,
      leftAfter_zero]
    exact congrArg _ ih

/-- Writing is canonical: at most five divisions leave nothing, their remainders are the groups of digits,
    and what is written is the only numeral of the value without superfluous zeros. It is read back, and the
    texts that are read as the point are this one and this one behind zeros. -/
theorem decimal_canonical (x : RingId) :
    (x.chunks.length ≤ 5 ∧ (∀ n, leftAfter x n = zero ↔ x.chunks.length ≤ n) ∧
      x.chunks = (List.range x.chunks.length).map fun n => ((leftAfter x n).divRem chunk).2) ∧
    (∀ text : String, text = x.decimal ↔
      IsCanonical text.toList ∧ numeralValue text.toList = x.val) ∧
    ofDecimal x.decimal = .ok x ∧
    ∀ text : String, ofDecimal text = .ok x ↔
      ∃ k, text.toList = List.replicate k '0' ++ x.decimal.toList := by
  refine ⟨⟨length_chunks_le x, fun n => leftAfter_eq_zero_iff, chunks_eq_map x⟩, fun text => ?_,
    ofDecimal_decimal x, fun text => ?_⟩
  · rw [← String.toList_inj, toList_decimal]
    constructor
    · intro h
      rw [h]
      exact ⟨isCanonical_digits _, numeralValue_digits _⟩
    · rintro ⟨hc, hv⟩
      rw [← hv, digits_numeralValue hc]
  · rw [ofDecimal_eq_ok_iff, toList_decimal]
    constructor
    · rintro ⟨hn, hv⟩
      exact hv ▸ hn.eq_zeros_append
    · rintro ⟨k, hk⟩
      rw [hk, numeralValue_zeros, numeralValue_digits]
      exact ⟨(isNumeral_digits _).zeros_append k, rfl⟩

end RingId

end RingOverlay
