import RingOverlay.Proofs.Json.Reader

/-!
# `Json.Number` — numbers are natural where their text is

A number is kept as a natural number only if it is written with digits alone; a point, an exponent, a sign or
too many digits make it another one. So a reading that comes to a natural number has taken all digits off and
stands in front of something else.

## Contents
- **Digits.** `absorb_append`, `drop_absorb`.
- **Other numbers.** `NotNatural`, and `yields_…` for each reader that never comes to a natural number.
- **Natural numbers.** `readNumber_of_isInteger`, `readNumber_eq_natural`.
-/

namespace RingOverlay.Json

open Text

variable {cs rest : List Char} {positive : Bool} {significand : Nat} {e : Int}

/-! ## Digits -/

/-- Digits are all taken in while their value has 64 bits. -/
theorem absorb_append {ds : List Char} (h : ∀ c ∈ ds, c.isDigit)
    (hrest : ∀ c, rest.head? = some c → ¬c.isDigit)
    (hfit : decimalFrom significand ds ≤ maxSignificand) :
    absorb significand (ds ++ rest) = (decimalFrom significand ds, ds.length, false) := by
  induction ds generalizing significand with
  | nil =>
    cases rest with
    | nil => rfl
    | cons c rest =>
      have hc := digitValue?_of_not_isDigit (hrest c rfl)
      simp only [List.nil_append, absorb, hc, decimalFrom_nil, List.length_nil]
  | cons c ds ih =>
    rw [List.forall_mem_cons] at h
    have hc := digitValue?_of_isDigit h.1
    rw [decimalFrom_cons, hc, Option.getD_some] at hfit
    have hnot : ¬maxSignificand < significand * 10 + (c.toNat - '0'.toNat) :=
      Nat.not_lt.2 (Nat.le_trans (le_decimalFrom _ _) hfit)
    simp only [List.cons_append, absorb, hc, if_neg hnot, ih h.2 hfit, decimalFrom_cons,
      Option.getD_some, List.length_cons]

/-- Where no digit is left over, all digits have been taken in. -/
theorem drop_absorb (h : (absorb significand cs).2.2 = false) :
    cs.drop (absorb significand cs).2.1 = cs.dropWhile Char.isDigit := by
  induction cs generalizing significand with
  | nil => rfl
  | cons c cs ih =>
    by_cases hc : c.isDigit
    · have hv := digitValue?_of_isDigit hc
      simp only [absorb, hv] at h
      split at h
      · cases h
      · next hfull =>
        simp only [absorb, hv, if_neg hfull]
        rw [List.drop_succ_cons, List.dropWhile_cons_of_pos hc, ih h]
    · have hv := digitValue?_of_not_isDigit hc
      simp only [absorb, hv]
      rw [List.drop_zero, List.dropWhile_cons_of_neg hc]

/-! ## Other numbers -/

/-- A number that is not kept as a natural one. -/
def NotNatural (x : Number) : Prop := ∀ n, x ≠ .natural n

theorem yields_ofParts : Yields (ofParts positive significand e) NotNatural := by
  unfold ofParts
  split
  · exact yields_throw _ _
  · exact yields_pure nofun

theorem yields_readExponent : Yields (readExponent positive significand e) NotNatural := by
  unfold readExponent
  refine Yields.bind fun _ => Yields.bind fun sign => Yields.step fun _ => Yields.bind fun c => ?_
  split
  · exact yields_throw _ _
  refine Yields.step fun _ => Yields.bind fun _ => Yields.bind fun _ => ?_
  apply Yields.ite
  · intro _
    exact Yields.step fun _ => yields_pure nofun
  · intro _
    exact yields_ofParts

theorem yields_readEnd : Yields (readEnd positive significand e) NotNatural := by
  unfold readEnd
  refine Yields.bind fun c => ?_
  exact Yields.ite (fun _ => yields_readExponent) (fun _ => yields_ofParts)

theorem yields_readFraction : Yields (readFraction positive significand e) NotNatural := by
  unfold readFraction
  refine Yields.bind fun _ => Yields.bind fun cs => Yields.bind fun _ => ?_
  apply Yields.ite
  · intro _
    exact Yields.bind fun _ => yields_readEnd
  · intro _
    apply Yields.ite
    · intro _
      exact Yields.bind fun c => Yields.bind fun _ => yields_readEnd
    · intro _
      exact yields_readEnd

theorem yields_readLong : Yields (readLong positive significand) NotNatural := by
  unfold readLong
  refine Yields.bind fun more => Yields.bind fun c => ?_
  exact Yields.ite (fun _ => yields_readFraction) (fun _ => yields_readEnd)

/-! ## Natural numbers -/

/-- What may follow digits that are all of a number. -/
def EndsNumber (rest : List Char) : Prop :=
  ∀ c, rest.head? = some c → ¬c.isDigit ∧ c ≠ '.' ∧ c ≠ 'e' ∧ c ≠ 'E'

theorem Delimited.endsNumber (h : Delimited rest) : EndsNumber rest := by
  intro c hc
  have hend := h c hc
  rw [isBlank, decide_eq_true_eq] at hend
  rcases hend with (rfl | rfl | rfl | rfl) | rfl | rfl | rfl <;> decide

theorem readShort_of_endsNumber (h : EndsNumber cs) :
    readShort true significand cs = .ok (.natural significand, cs) := by
  have hpeek : peek cs = .ok (cs.head?, cs) := rfl
  have hdot : cs.head? ≠ some '.' := fun hc => (h _ hc).2.1 rfl
  have hexponent : ¬(cs.head? = some 'e' ∨ cs.head? = some 'E') := by
    rintro (hc | hc)
    · exact (h _ hc).2.2.1 rfl
    · exact (h _ hc).2.2.2 rfl
  rw [readShort, bind_of_ok hpeek, if_neg hdot, if_neg hexponent, if_pos rfl]
  rfl

/-- An integer part that is kept as a natural number has no sign, and nothing belongs to the number behind
    it. -/
theorem readShort_eq_natural {n : Nat} {rest' : List Char} (hcs : ∀ c, cs.head? = some c → ¬c.isDigit)
    (h : readShort positive significand cs = .ok (.natural n, rest')) :
    positive = true ∧ n = significand ∧ rest' = cs ∧ EndsNumber cs := by
  have hpeek : peek cs = .ok (cs.head?, cs) := rfl
  rw [readShort, bind_of_ok hpeek] at h
  split at h
  · exact absurd rfl (yields_readFraction _ _ _ h n)
  split at h
  · exact absurd rfl (yields_readExponent _ _ _ h n)
  split at h
  · next hdot hexponent hpositive =>
    cases h
    refine ⟨hpositive, rfl, rfl, fun c hc => ⟨hcs c hc, ?_, ?_, ?_⟩⟩
    · rintro rfl
      exact hdot hc
    · rintro rfl
      exact hexponent (.inl hc)
    · rintro rfl
      exact hexponent (.inr hc)
  · split at h <;> cases h

theorem head?_dropWhile_digits (cs : List Char) :
    ∀ c, (cs.dropWhile Char.isDigit).head? = some c → ¬c.isDigit := by
  intro c hc
  have hnot := List.head?_dropWhile_not Char.isDigit cs
  rw [hc] at hnot
  rw [hnot]
  exact Bool.false_ne_true

theorem dropWhile_digits_eq_self (h : ∀ c, cs.head? = some c → ¬c.isDigit) :
    cs.dropWhile Char.isDigit = cs := by
  cases cs with
  | nil => rfl
  | cons c cs => exact List.dropWhile_cons_of_neg (h c rfl)

/-- A zero stands alone in front of what is no digit. -/
theorem readNumber_zero (positive : Bool) :
    readNumber positive ('0' :: rest) = if rest.head?.any Char.isDigit then .error .malformed
      else readShort positive 0 rest := by
  have hpeek : peek ('0' :: rest) = .ok (some '0', '0' :: rest) := rfl
  have hskip : skip ('0' :: rest) = .ok ((), rest) := rfl
  have hpeek' : peek rest = .ok (rest.head?, rest) := rfl
  rw [readNumber, bind_of_ok hpeek]
  simp only [if_true]
  rw [bind_of_ok hskip, bind_of_ok hpeek']
  split <;> rfl

theorem readNumber_digit (positive : Bool) {c : Char} (h : c.isDigit) (h0 : c ≠ '0') :
    readNumber positive (c :: cs) = (if (absorb 0 (c :: cs)).2.2
      then readLong positive (absorb 0 (c :: cs)).1 else readShort positive (absorb 0 (c :: cs)).1)
        ((c :: cs).drop (absorb 0 (c :: cs)).2.1) := by
  have hpeek : peek (c :: cs) = .ok (some c, c :: cs) := rfl
  have hget : (get : Reader (List Char)) (c :: cs) = .ok (c :: cs, c :: cs) := rfl
  rw [readNumber, bind_of_ok hpeek]
  simp only [if_neg h0, if_pos h]
  rw [bind_of_ok hget]
  rfl

/-- An integer is read as the number that it denotes. -/
theorem readNumber_of_isInteger {n : Nat} (h : IsInteger cs n) (hn : n ≤ maxSignificand)
    (hrest : EndsNumber rest) : readNumber true (cs ++ rest) = .ok (.natural n, rest) := by
  obtain ⟨hcanonical, rfl⟩ := h
  have hdigit : ∀ c, rest.head? = some c → ¬c.isDigit := fun c hc => (hrest c hc).1
  cases cs with
  | nil => exact absurd rfl hcanonical.ne_nil
  | cons c cs =>
    by_cases h0 : c = '0'
    · have hnot : ¬rest.head?.any Char.isDigit := by
        rw [Option.any_eq_true]
        rintro ⟨c, hc, hd⟩
        exact hdigit c hc hd
      rw [hcanonical.eq_of_head (by rw [h0, List.head?_cons]), List.singleton_append, readNumber_zero,
        if_neg hnot, readShort_of_endsNumber hrest]
      rfl
    · have hc := hcanonical.isDigit c List.mem_cons_self
      have habsorb : absorb 0 (c :: cs ++ rest)
          = (decimalFrom 0 (c :: cs), (c :: cs).length, false) := by
        apply absorb_append hcanonical.isDigit hdigit
        rw [decimalFrom_zero hcanonical.isDigit]
        exact hn
      rw [List.cons_append, readNumber_digit true hc h0, ← List.cons_append, habsorb]
      show readShort true _ ((c :: cs ++ rest).drop (c :: cs).length) = _
      rw [List.drop_left, readShort_of_endsNumber hrest, decimalFrom_zero hcanonical.isDigit]

/-- Where a number is kept as a natural one, all of its digits have been taken off, and nothing belongs to it
    behind them. -/
theorem readNumber_eq_natural {n : Nat} {rest' : List Char}
    (h : readNumber positive cs = .ok (.natural n, rest')) :
    positive = true ∧ rest' = cs.dropWhile Char.isDigit ∧ EndsNumber rest' := by
  cases cs with
  | nil => cases h
  | cons c cs =>
    by_cases h0 : c = '0'
    · rw [h0, readNumber_zero] at h
      split at h
      · cases h
      · next hdigit =>
        have hnot : ∀ c, cs.head? = some c → ¬c.isDigit := by
          intro c hc
          rw [hc] at hdigit
          exact hdigit
        obtain ⟨hpositive, -, rfl, hend⟩ := readShort_eq_natural hnot h
        refine ⟨hpositive, ?_, hend⟩
        rw [h0, List.dropWhile_cons_of_pos rfl, dropWhile_digits_eq_self hnot]
    · by_cases hc : c.isDigit
      · rw [readNumber_digit positive hc h0] at h
        split at h
        · exact absurd rfl (yields_readLong _ _ _ h n)
        · next hfull =>
          rw [drop_absorb (Bool.eq_false_iff.2 hfull)] at h
          obtain ⟨hpositive, -, rfl, hend⟩ := readShort_eq_natural (head?_dropWhile_digits _) h
          exact ⟨hpositive, rfl, hend⟩
      · have hpeek : peek (c :: cs) = .ok (some c, c :: cs) := rfl
        rw [readNumber, bind_of_ok hpeek] at h
        simp only [if_neg h0, if_neg hc] at h
        cases h

end RingOverlay.Json
