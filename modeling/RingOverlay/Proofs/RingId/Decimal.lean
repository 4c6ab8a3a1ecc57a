import Mathlib.Data.List.TakeWhile
import RingOverlay.Proofs.RingId.Value
import RingOverlay.Wire.Message

/-!
# `RingId.Decimal` — a point survives its decimal numeral

A numeral is read from the left, so its value is a fold over its characters, and `readDigit` computes that
fold on points until the value reaches 2^256 or a character is no digit. `decimal` writes digits in groups;
put together, these are the digits of the value in one piece.

## Contents
- **Numerals.** `Text.decimalFrom` reads digits, `Text.digits_mul_add` splits what `Text.digits` writes.
- **Reading.** `foldlM_readDigit`, and `ofDecimal_eq` for whole texts.
- **Writing.** `toList_decimal`.
- **Round trips.** `ofDecimal_decimal` for points, `Contact.node_contact` for nodes.
-/

namespace RingOverlay

/-! ## Numerals -/

namespace Text

/-- The value of a decimal numeral whose part before `cs` has the value `n`. -/
def decimalFrom (n : Nat) (cs : List Char) : Nat :=
  cs.foldl (fun n c => n * 10 + (digitValue? c).getD 0) n

theorem decimalFrom_append (n : Nat) (cs ds : List Char) :
    decimalFrom n (cs ++ ds) = decimalFrom (decimalFrom n cs) ds := by
  simp only [decimalFrom, List.foldl_append]

theorem decimalFrom_nil (n : Nat) : decimalFrom n [] = n := rfl

theorem decimalFrom_cons (n : Nat) (c : Char) (cs : List Char) :
    decimalFrom n (c :: cs) = decimalFrom (n * 10 + (digitValue? c).getD 0) cs := rfl

theorem le_decimalFrom (n : Nat) (cs : List Char) : n ≤ decimalFrom n cs := by
  induction cs generalizing n with
  | nil => exact Nat.le_refl n
  | cons c cs ih =>
    rw [decimalFrom_cons]
    exact Nat.le_trans (by omega) (ih _)

theorem digitValue?_digitChar (d : Nat) : digitValue? (digitChar d) = some (d % 10) := by
  have h : ∀ r < 10, digitValue? (Char.ofNat (48 + r)) = some r := by decide
  exact h _ (Nat.mod_lt d (by decide))

/-- A digit counts as far as it is from the digit `0`. -/
theorem digitValue?_of_isDigit {c : Char} (h : c.isDigit) :
    digitValue? c = some (c.toNat - '0'.toNat) := by
  rw [Char.isDigit, Bool.and_eq_true, decide_eq_true_eq, decide_eq_true_eq] at h
  exact if_pos h

theorem digitValue?_of_not_isDigit {c : Char} (h : ¬c.isDigit) : digitValue? c = none := by
  rw [Char.isDigit, Bool.and_eq_true, decide_eq_true_eq, decide_eq_true_eq] at h
  exact if_neg h

theorem isDigit_of_digitValue? {c : Char} {d : Nat} (h : digitValue? c = some d) : c.isDigit := by
  by_cases hc : c.isDigit
  · exact hc
  · rw [digitValue?_of_not_isDigit hc] at h
    cases h

theorem isDigit_digitChar (d : Nat) : (digitChar d).isDigit :=
  isDigit_of_digitValue? (digitValue?_digitChar d)

theorem digitChar_mul_add (n d : Nat) : digitChar (n * 10 + d) = digitChar d := by
  rw [digitChar, digitChar, show (n * 10 + d) % 10 = d % 10 by omega]

theorem decimalFrom_digitChar (n d : Nat) : decimalFrom n [digitChar d] = n * 10 + d % 10 := by
  rw [decimalFrom_cons, digitValue?_digitChar]
  rfl

theorem decimalFrom_digits (n : Nat) : decimalFrom 0 (digits n) = n := by
  induction n using digits.induct with
  | case1 n h =>
    rw [digits, if_pos h, decimalFrom_digitChar]
    omega
  | case2 n h ih =>
    rw [digits, if_neg h, decimalFrom_append, ih, decimalFrom_digitChar]
    omega

theorem isDigit_of_mem_digits {n : Nat} {c : Char} (h : c ∈ digits n) : c.isDigit := by
  induction n using digits.induct with
  | case1 n hn =>
    rw [digits, if_pos hn, List.mem_singleton] at h
    exact h ▸ isDigit_digitChar n
  | case2 n hn ih =>
    rw [digits, if_neg hn, List.mem_append, List.mem_singleton] at h
    rcases h with h | h
    · exact ih h
    · exact h ▸ isDigit_digitChar n

theorem digits_ne_nil (n : Nat) : digits n ≠ [] := by
  unfold digits
  split
  · exact List.cons_ne_nil _ _
  · exact List.append_ne_nil_of_right_ne_nil _ (List.cons_ne_nil _ _)

/-- The last places of a number are written behind the rest of it, filled up with zeros. -/
theorem digits_mul_add {n w m : Nat} (hn : 0 < n) (hm : m < 10 ^ w) :
    digits (n * 10 ^ w + m) = digits n ++ paddedDigits w m := by
  induction w generalizing m with
  | zero =>
    obtain rfl : m = 0 := Nat.lt_one_iff.1 hm
    rw [Nat.pow_zero, Nat.mul_one, Nat.add_zero, paddedDigits, List.append_nil]
  | succ w ih =>
    have hpos : 0 < n * 10 ^ w := Nat.mul_pos hn (Nat.pow_pos (by decide))
    rw [Nat.pow_succ] at hm
    rw [Nat.pow_succ, ← Nat.mul_assoc, digits, if_neg (by omega), digitChar_mul_add,
      show (n * 10 ^ w * 10 + m) / 10 = n * 10 ^ w + m / 10 by omega, ih (by omega), paddedDigits,
      List.append_assoc]

theorem isEmpty_eq_false_iff {s : String} : s.isEmpty = false ↔ s ≠ "" := by
  rw [String.isEmpty, beq_eq_false_iff_ne, ne_eq, String.utf8ByteSize_eq_zero_iff]

end Text

namespace RingId

open Text

/-! ## Reading -/

theorem toNat_ofNat_digit {c : Char} (h : c.isDigit) :
    (UInt64.ofNat (c.toNat - '0'.toNat)).toNat = c.toNat - '0'.toNat := by
  have h9 := (Char.isDigit_iff_toNat.1 h).2
  have hlt : '9'.toNat < 2 ^ 64 := by decide
  rw [UInt64.toNat_ofNat', Nat.mod_eq_of_lt (by omega)]

/-- A digit is taken in where the value allows it. -/
theorem readDigit_of_val {text : String} {x y : RingId} {c : Char} (hc : c.isDigit)
    (hy : y.val = x.val * 10 + (c.toNat - '0'.toNat)) : readDigit text x c = .ok y := by
  have hm : x.mulAdd? 10 (.ofNat (c.toNat - '0'.toNat)) = some y := by
    rw [mulAdd?_eq_some_iff, hy, toNat_ofNat_digit hc]
    rfl
  simp only [readDigit, digitValue?_of_isDigit hc, hm]

/-- A digit that makes the value too large. -/
theorem readDigit_of_le {text : String} {x : RingId} {c : Char} (hc : c.isDigit)
    (h : 2 ^ 256 ≤ x.val * 10 + (c.toNat - '0'.toNat)) :
    readDigit text x c = .error (.tooLarge text) := by
  have hm : x.mulAdd? 10 (.ofNat (c.toNat - '0'.toNat)) = none := by
    rw [Option.eq_none_iff_forall_ne_some]
    intro y hy
    rw [mulAdd?_eq_some_iff, toNat_ofNat_digit hc] at hy
    exact absurd (val_lt y) (Nat.not_lt_of_le (hy ▸ h))
  simp only [readDigit, digitValue?_of_isDigit hc, hm]

/-- Reading on from the value of `x`: digits that reach 2^256 before the first other character make
    the numeral too large, and any other character spoils it. -/
theorem foldlM_readDigit (text : String) (x : RingId) (cs : List Char) :
    cs.foldlM (readDigit text) x =
      if 2 ^ 256 ≤ decimalFrom x.val (cs.takeWhile Char.isDigit) then .error (.tooLarge text)
      else if cs.all Char.isDigit then .ok (ofNat (decimalFrom x.val cs))
      else .error (.notDecimal text) := by
  have hx := val_lt x
  induction cs generalizing x with
  | nil =>
    rw [List.takeWhile_nil, List.all_nil, if_pos rfl, decimalFrom_nil, if_neg (Nat.not_le_of_lt hx),
      ofNat_val]
    rfl
  | cons c cs ih =>
    rw [List.foldlM_cons]
    by_cases hc : c.isDigit
    · rw [List.takeWhile_cons_of_pos hc, List.all_cons, hc, Bool.true_and, decimalFrom_cons,
        decimalFrom_cons, digitValue?_of_isDigit hc, Option.getD_some]
      by_cases h : x.val * 10 + (c.toNat - '0'.toNat) < 2 ^ 256
      · obtain ⟨y, hy⟩ := exists_val_eq h
        rw [readDigit_of_val hc hy, ← hy]
        exact ih y (val_lt y)
      · -- the digits that follow make the value no smaller
        have h := Nat.le_of_not_lt h
        rw [readDigit_of_le hc h, if_pos (Nat.le_trans h (le_decimalFrom _ _))]
        rfl
    · have hr : readDigit text x c = .error (.notDecimal text) := by
        rw [readDigit, digitValue?_of_not_isDigit hc]
      rw [List.takeWhile_cons_of_neg hc, hr, decimalFrom_nil, if_neg (Nat.not_le_of_lt hx),
        List.all_cons, Bool.eq_false_iff.2 hc, Bool.false_and, if_neg Bool.false_ne_true]
      rfl

/-- What a text is read as. -/
theorem ofDecimal_eq (text : String) :
    ofDecimal text =
      if text = "" then .error .empty
      else if 2 ^ 256 ≤ decimalFrom 0 (text.toList.takeWhile Char.isDigit) then
        .error (.tooLarge text)
      else if text.toList.all Char.isDigit then .ok (ofNat (decimalFrom 0 text.toList))
      else .error (.notDecimal text) := by
  rw [ofDecimal, foldlM_readDigit, val_zero]
  by_cases h : text = ""
  · rw [if_pos h, h]
    rfl
  · rw [if_neg h, isEmpty_eq_false_iff.2 h, if_neg Bool.false_ne_true]

/-- Digits with the value of a point are read as that point. -/
theorem ofDecimal_of_digits {text : String} {x : RingId} (hne : text ≠ "")
    (hc : ∀ c ∈ text.toList, c.isDigit) (hx : decimalFrom 0 text.toList = x.val) :
    ofDecimal text = .ok x := by
  rw [ofDecimal_eq, if_neg hne, List.takeWhile_eq_self_iff.2 hc, hx,
    if_neg (Nat.not_le_of_lt (val_lt x)), if_pos (List.all_eq_true.2 hc), ofNat_val]

/-! ## Writing -/

/-- The number of groups of digits that are given least significant first. -/
def chunksValue (cs : List UInt64) : Nat := cs.foldr (fun c n => n * chunk.toNat + c.toNat) 0

theorem chunksValue_cons (c : UInt64) (cs : List UInt64) :
    chunksValue (c :: cs) = chunksValue cs * chunk.toNat + c.toNat := by
  rw [chunksValue, List.foldr_cons, ← chunksValue]

theorem chunks_of_ne {x : RingId} (h : x ≠ zero) :
    x.chunks = (x.divRem chunk).2 :: chunks (x.divRem chunk).1 := by
  rw [chunks, dif_neg h]

theorem chunks_zero : chunks zero = [] := by rw [chunks, dif_pos rfl]

theorem chunksValue_chunks (x : RingId) : chunksValue x.chunks = x.val := by
  induction x using chunks.induct with
  | case1 =>
    rw [chunks_zero, val_zero]
    rfl
  | case2 x h _ ih =>
    rw [chunks_of_ne h, chunksValue_cons, ih]
    exact (divRem_val x (show 0 < chunk.toNat by decide)).1

theorem lt_chunk_of_mem_chunks {x : RingId} {c : UInt64} (h : c ∈ x.chunks) :
    c.toNat < chunk.toNat := by
  induction x using chunks.induct with
  | case1 =>
    rw [chunks_zero] at h
    cases h
  | case2 x hx _ ih =>
    rw [chunks_of_ne hx] at h
    rcases List.mem_cons.1 h with rfl | h
    · exact (divRem_val x (show 0 < chunk.toNat by decide)).2
    · exact ih h

/-- Groups of digits behind a number. -/
theorem digits_foldl {cs : List UInt64} {n : Nat} (hn : 0 < n)
    (h : ∀ c ∈ cs, c.toNat < chunk.toNat) :
    digits (cs.foldl (fun n c => n * chunk.toNat + c.toNat) n)
      = digits n ++ cs.flatMap fun c => paddedDigits chunkDigits c.toNat := by
  induction cs generalizing n with
  | nil => exact (List.append_nil _).symm
  | cons c cs ih =>
    have hp : 10 ^ chunkDigits = chunk.toNat := by decide
    have hc := h c (List.mem_cons_self ..)
    have hpos : 0 < n * chunk.toNat + c.toNat := Nat.add_pos_left (Nat.mul_pos hn (by decide)) _
    rw [List.foldl_cons, ih hpos fun d hd => h d (List.mem_cons_of_mem _ hd), ← hp,
      digits_mul_add hn (hp ▸ hc), List.flatMap_cons, List.append_assoc]

/-- The most significant group is not empty. -/
theorem pos_of_getLast?_chunks {x : RingId} {c : UInt64} (h : x.chunks.getLast? = some c) :
    0 < c.toNat := by
  induction x using chunks.induct with
  | case1 =>
    rw [chunks_zero] at h
    cases h
  | case2 x hx _ ih =>
    rw [chunks_of_ne hx] at h
    by_cases hq : (x.divRem chunk).1 = zero
    · -- the last division leaves nothing, so its remainder is all of the value
      have he := (divRem_val x (show 0 < chunk.toNat by decide)).1
      rw [hq, chunks_zero, List.getLast?_singleton, Option.some_inj] at h
      rw [hq, val_zero, Nat.zero_mul, Nat.zero_add, h] at he
      exact he ▸ val_pos hx
    · rw [chunks_of_ne hq, List.getLast?_cons_cons, ← chunks_of_ne hq] at h
      exact ih h

/-- Groups of digits make up the numeral of the value. -/
theorem toList_decimal (x : RingId) : x.decimal.toList = digits x.val := by
  have hv : x.chunks.reverse.foldl (fun n c => n * chunk.toNat + c.toNat) 0 = x.val := by
    rw [List.foldl_reverse]
    exact chunksValue_chunks x
  rw [decimal, String.toList_ofList, ← hv]
  cases h : x.chunks.reverse with
  | nil =>
    rw [joinChunks, List.foldl_nil, digits, if_pos (by decide)]
    rfl
  | cons c rest =>
    have hlt : ∀ d ∈ rest, d.toNat < chunk.toNat := by
      intro d hd
      apply lt_chunk_of_mem_chunks (x := x)
      rw [← List.mem_reverse, h]
      exact List.mem_cons_of_mem _ hd
    have hpos : 0 < c.toNat := by
      apply pos_of_getLast?_chunks (x := x)
      rw [← List.head?_reverse, h, List.head?_cons]
    rw [joinChunks, List.foldl_cons, Nat.zero_mul, Nat.zero_add, digits_foldl hpos hlt]

/-- The numeral of a point has its value. -/
theorem decimalFrom_decimal (x : RingId) : decimalFrom 0 x.decimal.toList = x.val := by
  rw [toList_decimal, decimalFrom_digits]

theorem isDigit_of_mem_decimal {x : RingId} {c : Char} (h : c ∈ x.decimal.toList) : c.isDigit := by
  rw [toList_decimal] at h
  exact isDigit_of_mem_digits h

theorem decimal_ne_empty (x : RingId) : x.decimal ≠ "" := by
  intro h
  apply digits_ne_nil x.val
  rw [← toList_decimal, h]
  rfl

/-! ## Round trips -/

/-- A point that is written is read back. -/
theorem ofDecimal_decimal (x : RingId) : ofDecimal x.decimal = .ok x :=
  ofDecimal_of_digits (decimal_ne_empty x) (fun _ => isDigit_of_mem_decimal) (decimalFrom_decimal x)

end RingId

namespace Contact

/-- A contact whose parts can be read is a node. -/
theorem node_eq_ok {c : Contact} {id : RingId} (hid : RingId.ofDecimal c.nodeId = .ok id)
    (ha : c.address ≠ "") : c.node = .ok ⟨id, c.address⟩ := by
  have hne : ¬c.address.isEmpty = true := by
    rw [Text.isEmpty_eq_false_iff.2 ha]
    exact Bool.false_ne_true
  unfold node
  rw [hid]
  exact if_neg hne

/-- The parts of a contact that can be read. -/
theorem of_node_eq_ok {c : Contact} {n : Node} (h : c.node = .ok n) :
    RingId.ofDecimal c.nodeId = .ok n.id ∧ c.address = n.endpoint := by
  unfold node at h
  cases hid : RingId.ofDecimal c.nodeId with
  | error e =>
    rw [hid] at h
    cases h
  | ok id =>
    rw [hid] at h
    simp only at h
    split at h
    · cases h
    · rw [Except.ok.injEq] at h
      rw [← h]
      exact ⟨rfl, rfl⟩

/-- A node that survives its wire form is the same node. -/
theorem eq_of_node_contact {n m : Node} (h : n.contact.node = .ok m) : m = n := by
  obtain ⟨hid, haddress⟩ := of_node_eq_ok h
  rw [show RingId.ofDecimal n.contact.nodeId = .ok n.id from RingId.ofDecimal_decimal n.id,
    Except.ok.injEq] at hid
  cases m
  cases n
  simp only [Node.mk.injEq]
  exact ⟨hid.symm, haddress.symm⟩

/-- A node with an endpoint survives its wire form. -/
theorem node_contact {n : Node} (h : n.endpoint ≠ "") : n.contact.node = .ok n :=
  node_eq_ok (RingId.ofDecimal_decimal n.id) h

theorem required_contact {n : Node} (h : n.endpoint ≠ "") (field : String) :
    required (some n.contact) field = .ok n := node_contact h

theorem optional_contact {n : Node} (h : n.endpoint ≠ "") :
    optional (some n.contact) = .ok (some n) := by
  rw [optional, node_contact h]
  rfl

theorem optional_map {p : Option Node} (h : ∀ n, p = some n → n.endpoint ≠ "") :
    optional (p.map Node.contact) = .ok p := by
  cases p with
  | none => rfl
  | some n => exact optional_contact (h n rfl)

end Contact

end RingOverlay
