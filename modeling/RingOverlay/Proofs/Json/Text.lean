import RingOverlay.Proofs.Json.Reader
import RingOverlay.Proofs.RingId.Bytes

/-!
# `Json.Text` — strings are read as what they spell

The inside of a string is read as the characters that it denotes, and as nothing else: where a body denotes
nothing, for a unit of a pair stands alone in it, reading fails. What `quote` writes denotes the text that it
was given, whatever characters that has.

## Contents
- **Escapes.** `readEscape_short`, `readEscape_lone`, `readEscape_leading`.
- **Reading.** `readText_of_spells`, `readText_eq_ok`.
- **Writing.** `spells_escaped`, `isString_quote`.
-/

namespace RingOverlay.Json

open Text

variable {cs rest : List Char}

/-! ## Escapes -/

theorem shortEscape?_eq_some_iff {e d : Char} : shortEscape? e = some d ↔ (e, d) ∈ shortEscapes := by
  constructor
  · intro h
    unfold shortEscape? at h
    split at h <;> cases h <;> decide
  · intro h
    simp only [shortEscapes, List.mem_cons, Prod.mk.injEq, List.not_mem_nil, or_false] at h
    rcases h with ⟨rfl, rfl⟩ | ⟨rfl, rfl⟩ | ⟨rfl, rfl⟩ | ⟨rfl, rfl⟩ | ⟨rfl, rfl⟩ | ⟨rfl, rfl⟩ |
      ⟨rfl, rfl⟩ | ⟨rfl, rfl⟩ <;> rfl

/-- No short escape has the letter of a unit. -/
theorem not_mem_shortEscapes_u {d : Char} : ('u', d) ∉ shortEscapes := by
  intro h
  rw [← shortEscape?_eq_some_iff] at h
  cases h

theorem IsUnit.length {quad : List Char} {n : Nat} (h : IsUnit quad n) : quad.length = 4 := by
  cases h
  rfl

theorem IsUnit.hexUnit {quad : List Char} {n : Nat} (h : IsUnit quad n) (cs : List Char) :
    hexUnit (quad ++ cs) = .ok n := by
  obtain ⟨ha, hb, hc, hd⟩ := h
  simp only [List.cons_append, List.nil_append, Json.hexUnit, ha, hb, hc, hd]

theorem readEscape_short {e d : Char} (h : (e, d) ∈ shortEscapes) :
    readEscape (e :: cs) = .ok (d, 1) := by
  have hu : e ≠ 'u' := by
    rintro rfl
    exact not_mem_shortEscapes_u h
  rw [← shortEscape?_eq_some_iff] at h
  unfold readEscape
  split
  · next heq => cases heq
  · next heq =>
    cases heq
    exact absurd rfl hu
  · next heq =>
    cases heq
    rw [h]

theorem readEscape_unit {quad : List Char} {n : Nat} (h : IsUnit quad n) (cs : List Char) :
    readEscape ('u' :: (quad ++ cs)) =
      if isTrailing n then .error .malformed
      else if isLeading n then (readTrailing n cs).map fun d => (d, 11)
      else .ok (Char.ofNat n, 5) := by
  have hdrop : (quad ++ cs).drop 4 = cs := List.drop_left' h.length
  unfold readEscape
  simp only [h.hexUnit, hdrop]
  show (if isTrailing n = true then _ else _) = _
  split
  · rfl
  · split
    · cases readTrailing n cs <;> rfl
    · rfl

/-- A unit that belongs to no pair is a character of its own. -/
theorem readEscape_lone {quad : List Char} {n : Nat} (h : IsUnit quad n)
    (hlone : n < 0xd800 ∨ 0xe000 ≤ n) : readEscape ('u' :: (quad ++ cs)) = .ok (Char.ofNat n, 5) := by
  have htrailing : isTrailing n = false := by
    rw [isTrailing, decide_eq_false_iff_not]
    omega
  have hleading : isLeading n = false := by
    rw [isLeading, decide_eq_false_iff_not]
    omega
  rw [readEscape_unit h, htrailing, hleading]
  rfl

/-- The second unit of a pair is read behind the first one. -/
theorem readTrailing_of_unit {quad : List Char} {m n : Nat} (h : IsUnit quad n)
    (hn : 0xdc00 ≤ n ∧ n < 0xe000) :
    readTrailing m ('\\' :: 'u' :: (quad ++ cs))
      = .ok (Char.ofNat ((m - 0xd800) * 0x400 + (n - 0xdc00) + 0x10000)) := by
  have htrailing : isTrailing n = true := decide_eq_true hn
  unfold readTrailing
  simp only [h.hexUnit]
  show (if isTrailing n = true then _ else _) = _
  rw [if_pos htrailing]
  rfl

theorem readEscape_leading {quad quad' : List Char} {m n : Nat} (hm : IsUnit quad m)
    (hn : IsUnit quad' n) (hleading : 0xd800 ≤ m ∧ m < 0xdc00) (htrailing : 0xdc00 ≤ n ∧ n < 0xe000) :
    readEscape ('u' :: (quad ++ '\\' :: 'u' :: (quad' ++ cs)))
      = .ok (Char.ofNat ((m - 0xd800) * 0x400 + (n - 0xdc00) + 0x10000), 11) := by
  have ht : isTrailing m = false := by
    rw [isTrailing, decide_eq_false_iff_not]
    omega
  have hl : isLeading m = true := decide_eq_true hleading
  rw [readEscape_unit hm, ht, hl, readTrailing_of_unit hn htrailing]
  rfl

/-! ## Reading -/

theorem readText_close : readText ('"' :: rest) = .ok ([], rest) := by
  rw [readText, if_pos rfl]

theorem readText_plain {c : Char} (hc : IsPlain c) :
    readText (c :: cs) = (readText cs).map fun p => (c :: p.1, p.2) := by
  rw [readText, if_neg hc.2.1, if_neg hc.2.2, if_neg (Char.not_lt.2 hc.1)]
  cases readText cs <;> rfl

theorem readText_escape {d : Char} {used : Nat} (h : readEscape cs = .ok (d, used)) :
    readText ('\\' :: cs) = (readText (cs.drop used)).map fun p => (d :: p.1, p.2) := by
  rw [readText, if_neg (by decide), if_pos rfl, h]
  show (readText (cs.drop used) >>= _) = _
  cases readText (cs.drop used) <;> rfl

theorem readText_escape_error {e : ReadFault} (h : readEscape cs = .error e) :
    readText ('\\' :: cs) = .error e := by
  rw [readText, if_neg (by decide), if_pos rfl, h]
  rfl

theorem readText_short {e d : Char} (h : (e, d) ∈ shortEscapes) :
    readText ('\\' :: e :: cs) = (readText cs).map fun p => (d :: p.1, p.2) :=
  readText_escape (readEscape_short h)

theorem readText_unit {quad : List Char} {n : Nat} (h : IsUnit quad n)
    (hlone : n < 0xd800 ∨ 0xe000 ≤ n) :
    readText ('\\' :: 'u' :: (quad ++ cs)) = (readText cs).map fun p => (Char.ofNat n :: p.1, p.2) := by
  have hdrop : ('u' :: (quad ++ cs)).drop 5 = cs := List.drop_left' h.length
  rw [readText_escape (readEscape_lone h hlone), hdrop]

theorem readText_pair {quad quad' : List Char} {m n : Nat} (hm : IsUnit quad m) (hn : IsUnit quad' n)
    (hleading : 0xd800 ≤ m ∧ m < 0xdc00) (htrailing : 0xdc00 ≤ n ∧ n < 0xe000) :
    readText ('\\' :: 'u' :: (quad ++ '\\' :: 'u' :: (quad' ++ cs))) = (readText cs).map fun p =>
      (Char.ofNat ((m - 0xd800) * 0x400 + (n - 0xdc00) + 0x10000) :: p.1, p.2) := by
  have hsplit : 'u' :: (quad ++ '\\' :: 'u' :: (quad' ++ cs))
      = 'u' :: (quad ++ '\\' :: 'u' :: quad') ++ cs := by simp
  have hdrop : ('u' :: (quad ++ '\\' :: 'u' :: (quad' ++ cs))).drop 11 = cs := by
    rw [hsplit]
    apply List.drop_left'
    simp [hm.length, hn.length]
  rw [readText_escape (readEscape_leading hm hn hleading htrailing), hdrop]

/-- A string is read as what its inside spells. -/
theorem readText_of_spells {s : List Char} (h : Spells cs s) :
    readText (cs ++ '"' :: rest) = .ok (s, rest) := by
  induction h with
  | nil => exact readText_close
  | plain hc _ ih =>
    rw [List.cons_append, readText_plain hc, ih]
    rfl
  | short he _ ih =>
    rw [List.cons_append, List.cons_append, readText_short he, ih]
    rfl
  | unit hn hlone _ ih =>
    rw [List.cons_append, List.cons_append, List.append_assoc, readText_unit hn hlone, ih]
    rfl
  | pair hm hn hleading htrailing _ ih =>
    simp only [List.cons_append, List.append_assoc]
    rw [readText_pair hm hn hleading htrailing, ih]
    rfl

theorem exists_of_map_eq_ok {ε α β : Type} {r : Except ε α} {f : α → β} {b : β}
    (h : r.map f = .ok b) : ∃ a, r = .ok a ∧ f a = b := by
  cases r with
  | error e => cases h
  | ok a =>
    cases h
    exact ⟨a, rfl, rfl⟩

/-- Behind the first unit of a pair, only an escaped second unit is taken. -/
theorem IsBody.trailing {m : Nat} {d : Char} (h : IsBody cs)
    (hd : readTrailing m (cs ++ '"' :: rest) = .ok d) :
    ∃ quad n cs', cs = '\\' :: 'u' :: (quad ++ cs') ∧ IsUnit quad n ∧ (0xdc00 ≤ n ∧ n < 0xe000) ∧
      IsBody cs' := by
  cases h with
  | nil => cases hd
  | @plain c cs hc hcs =>
    unfold readTrailing at hd
    split at hd
    · next heq => exact absurd (List.cons.inj heq).1 hc.2.2
    · cases hd
    · cases hd
    · cases hd
  | @short e d' cs he hcs =>
    unfold readTrailing at hd
    split at hd
    · next heq =>
      obtain ⟨-, rfl, -⟩ : '\\' = '\\' ∧ e = 'u' ∧ _ := by simpa using heq
      exact absurd he not_mem_shortEscapes_u
    · cases hd
    · cases hd
    · cases hd
  | @unit quad n cs hn hcs =>
    by_cases htrailing : 0xdc00 ≤ n ∧ n < 0xe000
    · exact ⟨quad, n, cs, rfl, hn, htrailing, hcs⟩
    · have hnot : isTrailing n = false := decide_eq_false htrailing
      unfold readTrailing at hd
      simp only [List.cons_append, List.append_assoc, hn.hexUnit] at hd
      replace hd : (if isTrailing n = true then _ else _) = Except.ok d := hd
      rw [hnot] at hd
      cases hd

/-- A unit that is read is a character of its own, or the first one of a pair whose second one follows. -/
theorem of_readText_unit {quad s rest' : List Char} {m : Nat} (hm : IsUnit quad m) (hcs : IsBody cs)
    (h : readText ('\\' :: 'u' :: (quad ++ (cs ++ '"' :: rest))) = .ok (s, rest')) :
    ((m < 0xd800 ∨ 0xe000 ≤ m) ∧ ∃ s', s = Char.ofNat m :: s' ∧
      readText (cs ++ '"' :: rest) = .ok (s', rest')) ∨
    ((0xd800 ≤ m ∧ m < 0xdc00) ∧ ∃ quad' n cs' s', cs = '\\' :: 'u' :: (quad' ++ cs') ∧
      IsUnit quad' n ∧ (0xdc00 ≤ n ∧ n < 0xe000) ∧ IsBody cs' ∧
      s = Char.ofNat ((m - 0xd800) * 0x400 + (n - 0xdc00) + 0x10000) :: s' ∧
      readText (cs' ++ '"' :: rest) = .ok (s', rest')) := by
  have hescape := readEscape_unit hm (cs ++ '"' :: rest)
  rcases show (m < 0xd800 ∨ 0xe000 ≤ m) ∨ (0xdc00 ≤ m ∧ m < 0xe000) ∨ (0xd800 ≤ m ∧ m < 0xdc00) by omega
    with hlone | htrailing | hleading
  · rw [readText_unit hm hlone] at h
    obtain ⟨⟨s', _⟩, hr, heq⟩ := exists_of_map_eq_ok h
    cases heq
    exact .inl ⟨hlone, s', rfl, hr⟩
  · rw [isTrailing, decide_eq_true htrailing] at hescape
    rw [readText_escape_error hescape] at h
    cases h
  · have hnot : ¬(0xdc00 ≤ m ∧ m < 0xe000) := by omega
    rw [isTrailing, decide_eq_false hnot, isLeading, decide_eq_true hleading] at hescape
    cases ht : readTrailing m (cs ++ '"' :: rest) with
    | error e =>
      rw [ht] at hescape
      rw [readText_escape_error hescape] at h
      cases h
    | ok d =>
      obtain ⟨quad', n, cs', rfl, hn, hn', hcs'⟩ := hcs.trailing ht
      simp only [List.cons_append, List.append_assoc] at h
      rw [readText_pair hm hn hleading hn'] at h
      obtain ⟨⟨s', _⟩, hr, heq⟩ := exists_of_map_eq_ok h
      cases heq
      exact .inr ⟨hleading, quad', n, cs', s', rfl, hn, hn', hcs', rfl, hr⟩

/-- What is read behind an opening quote is what the inside of the string spells, and reading stops at the
    closing quote. -/
theorem readText_eq_ok {s rest' : List Char} (hbody : IsBody cs)
    (h : readText (cs ++ '"' :: rest) = .ok (s, rest')) : Spells cs s ∧ rest' = rest := by
  -- a pair takes two units off at once, so the induction is on the length
  induction hlen : cs.length using Nat.strongRecOn generalizing cs s with
  | _ n ih =>
    cases hbody with
    | nil =>
      rw [List.nil_append, readText_close] at h
      cases h
      exact ⟨.nil, rfl⟩
    | @plain c cs hc hcs =>
      rw [List.cons_append, readText_plain hc] at h
      obtain ⟨⟨s', _⟩, hr, heq⟩ := exists_of_map_eq_ok h
      cases heq
      have hshorter : cs.length < n := by
        rw [← hlen, List.length_cons]
        exact Nat.lt_succ_self _
      obtain ⟨hs, rfl⟩ := ih _ hshorter hcs hr rfl
      exact ⟨.plain hc hs, rfl⟩
    | @short e d cs he hcs =>
      rw [List.cons_append, List.cons_append, readText_short he] at h
      obtain ⟨⟨s', _⟩, hr, heq⟩ := exists_of_map_eq_ok h
      cases heq
      have hshorter : cs.length < n := by
        simp only [← hlen, List.length_cons]
        omega
      obtain ⟨hs, rfl⟩ := ih _ hshorter hcs hr rfl
      exact ⟨.short he hs, rfl⟩
    | @unit quad m cs hm hcs =>
      rw [List.cons_append, List.cons_append, List.append_assoc] at h
      rcases of_readText_unit hm hcs h with
        ⟨hlone, s', rfl, hr⟩ | ⟨hleading, quad', k, cs', s', rfl, hk, htrailing, hcs', rfl, hr⟩
      · have hshorter : cs.length < n := by
          simp only [← hlen, List.length_cons, List.length_append]
          omega
        obtain ⟨hs, rfl⟩ := ih _ hshorter hcs hr rfl
        exact ⟨.unit hm hlone hs, rfl⟩
      · have hshorter : cs'.length < n := by
          simp only [← hlen, List.length_cons, List.length_append]
          omega
        obtain ⟨hs, rfl⟩ := ih _ hshorter hcs' hr rfl
        exact ⟨.pair hm hk hleading htrailing hs, rfl⟩

theorem stringBody_cons (c : Char) (cs : List Char) :
    stringBody (c :: cs) = (readText cs).map fun p => (String.ofList p.1, p.2) := by
  have hskip : skip (c :: cs) = .ok ((), cs) := rfl
  have hget : (get : Reader (List Char)) cs = .ok (cs, cs) := rfl
  rw [stringBody, bind_of_ok hskip, bind_of_ok hget]
  cases readText cs <;> rfl

/-- Behind its opening quote, the inside of a string and the closing quote are taken off. -/
theorem stringBody_between {body rest : List Char} {s : String} (h : Spells body s.toList) :
    stringBody (between body ++ rest) = .ok (s, rest) := by
  rw [between, List.cons_append, List.append_assoc, stringBody_cons]
  show (readText (body ++ '"' :: rest)).map _ = _
  rw [readText_of_spells h]
  show Except.ok (String.ofList s.toList, rest) = _
  rw [String.ofList_toList]

theorem stringBody_eq_ok {body rest rest' : List Char} {s : String} (hbody : IsBody body)
    (h : stringBody (between body ++ rest) = .ok (s, rest')) :
    Spells body s.toList ∧ rest' = rest := by
  rw [between, List.cons_append, List.append_assoc, stringBody_cons] at h
  obtain ⟨⟨cs, _⟩, hread, heq⟩ := exists_of_map_eq_ok h
  cases heq
  rw [String.toList_ofList]
  exact readText_eq_ok hbody hread

/-! ## Writing -/

/-- A control is written as the unit that it is. -/
theorem isUnit_control {c : Char} (h : c < ' ') :
    IsUnit ['0', '0', hexDigit (c.toNat / 16), hexDigit c.toNat] c.toNat := by
  have hlt : c.toNat < 32 := h
  have hvalue : c.toNat = ((0 * 16 + 0) * 16 + c.toNat / 16 % 16) * 16 + c.toNat % 16 := by omega
  have hunit := IsUnit.intro (show hexValue? '0' = some 0 from rfl) (show hexValue? '0' = some 0 from rfl)
    (hexValue?_hexDigit (c.toNat / 16)) (hexValue?_hexDigit c.toNat)
  rwa [← hvalue] at hunit

theorem spells_escaped (c : Char) {cs s : List Char} (h : Spells cs s) :
    Spells (escaped c ++ cs) (c :: s) := by
  by_cases hshort : c ∈ ['"', '\\', '\x08', '\x0c', '\n', '\r', '\t']
  · simp only [List.mem_cons, List.not_mem_nil, or_false] at hshort
    rcases hshort with rfl | rfl | rfl | rfl | rfl | rfl | rfl <;> exact .short (by decide) h
  simp only [List.mem_cons, List.not_mem_nil, or_false, not_or] at hshort
  obtain ⟨hquote, hbackslash, hb, hf, hn, hr, ht⟩ := hshort
  unfold escaped
  rw [if_neg hquote, if_neg hbackslash, if_neg hb, if_neg hf, if_neg hn, if_neg hr, if_neg ht]
  split
  · next hcontrol =>
    have hlt : c.toNat < 32 := hcontrol
    have hunit := Spells.unit (isUnit_control hcontrol) (.inl (by omega)) h
    rwa [Char.ofNat_toNat] at hunit
  · next hcontrol => exact .plain ⟨Char.not_lt.1 hcontrol, hquote, hbackslash⟩ h

/-- A text that is written denotes itself. -/
theorem spells_flatMap_escaped (s : List Char) : Spells (s.flatMap escaped) s := by
  induction s with
  | nil => exact .nil
  | cons c s ih => exact spells_escaped c ih

instance (c : Char) : Decidable (IsPlain c) := inferInstanceAs (Decidable (_ ∧ _ ∧ _))

/-- Characters that stand for themselves spell themselves. -/
theorem spells_of_plain (h : cs.all fun c => IsPlain c) : Spells cs cs := by
  induction cs with
  | nil => exact .nil
  | cons c cs ih =>
    rw [List.all_cons, Bool.and_eq_true, decide_eq_true_eq] at h
    exact .plain h.1 (ih h.2)

theorem quote_eq_between (text : String) : quote text = between (text.toList.flatMap escaped) := rfl

theorem isString_quote (text : String) : IsString (quote text) text :=
  ⟨_, quote_eq_between text, spells_flatMap_escaped text.toList⟩

end RingOverlay.Json
