import Mathlib.Data.Nat.Digits.Lemmas
import RingOverlay.Proofs.RingId.Value
import RingOverlay.RingId.Text

/-!
# `RingId.Bytes` — points as bytes and as hexadecimal digits

A point is kept as 32 bytes and shown as 64 hexadecimal digits. Both are rows of places, the most significant
one first, and what is said of them here is said of such rows: rows of one length with the same number are the
same row, and they stand in the order of their numbers. So points, their bytes and their digits are
ordered alike.

## Contents
- **Rows of places.** `Text.placeValue` and its laws, `Text.lt_iff_placeValue_lt`.
- **Words.** `Text.bytesValue`, `bytesValue_wordBytes`, `toNat_wordOfBytes`, `wordBytes_wordOfBytes`.
- **Points.** `bytesValue_toBytes`, `val_ofFullBytes`, `ofBytes_eq_ok_iff`.
- **Digits.** `Text.placeValue_hexOfBytes`, `Text.hexOfBytes_lt_iff`.
- **All forms.** `forms_faithful`.
-/

namespace RingOverlay

/-! ## Rows of places -/

namespace Text

/-- The number that a row denotes, each place counting `base` times the next one. -/
def placeValue (base : Nat) (ds : List Nat) : Nat := Nat.ofDigits base ds.reverse

variable {base : Nat}

theorem placeValue_append (ds es : List Nat) :
    placeValue base (ds ++ es) = placeValue base ds * base ^ es.length + placeValue base es := by
  rw [placeValue, List.reverse_append, Nat.ofDigits_append, List.length_reverse, Nat.add_comm,
    Nat.mul_comm, ← placeValue, ← placeValue]

theorem placeValue_singleton (d : Nat) : placeValue base [d] = d := Nat.ofDigits_singleton

theorem placeValue_cons (d : Nat) (ds : List Nat) :
    placeValue base (d :: ds) = d * base ^ ds.length + placeValue base ds := by
  rw [← List.singleton_append, placeValue_append, placeValue_singleton]

/-- Zeros in front change no number. -/
theorem placeValue_zeros (k : Nat) (ds : List Nat) :
    placeValue base (List.replicate k 0 ++ ds) = placeValue base ds := by
  rw [placeValue, List.reverse_append, List.reverse_replicate, Nat.ofDigits_append_replicate_zero,
    ← placeValue]

theorem placeValue_lt (hb : 1 < base) {ds : List Nat} (h : ∀ d ∈ ds, d < base) :
    placeValue base ds < base ^ ds.length := by
  rw [← List.length_reverse]
  exact Nat.ofDigits_lt_base_pow_length hb fun d hd => h d (List.mem_reverse.1 hd)

/-- Rows of one length with the same number are the same. -/
theorem placeValue_injective (hb : 1 < base) {ds es : List Nat} (hlen : ds.length = es.length)
    (hd : ∀ d ∈ ds, d < base) (he : ∀ e ∈ es, e < base) (h : placeValue base ds = placeValue base es) :
    ds = es := by
  apply List.reverse_injective
  refine Nat.ofDigits_inj_of_len_eq hb (by rw [List.length_reverse, List.length_reverse, hlen]) ?_ ?_ h
  · exact fun d hd' => hd d (List.mem_reverse.1 hd')
  · exact fun e he' => he e (List.mem_reverse.1 he')

/-- Rows of one length stand in the order of their numbers, whatever signs are used for the digits, as long as
    the signs are in the order of the digits. -/
theorem lt_iff_placeValue_lt {α : Type} [LT α] {digit : α → Nat} {p : α → Prop} (hb : 1 < base)
    (hdigit : ∀ a, p a → digit a < base)
    (hlt : ∀ a b, p a → p b → (a < b ↔ digit a < digit b))
    (heq : ∀ a b, p a → p b → (a = b ↔ digit a = digit b)) {as bs : List α}
    (hlen : as.length = bs.length) (has : ∀ a ∈ as, p a) (hbs : ∀ b ∈ bs, p b) :
    as < bs ↔ placeValue base (as.map digit) < placeValue base (bs.map digit) := by
  have hrow : ∀ {cs : List α}, (∀ c ∈ cs, p c) →
      placeValue base (cs.map digit) < base ^ cs.length := by
    intro cs hcs
    rw [← List.length_map (f := digit)]
    apply placeValue_lt hb
    intro d hd
    obtain ⟨c, hc, rfl⟩ := List.mem_map.1 hd
    exact hdigit c (hcs c hc)
  induction as generalizing bs with
  | nil =>
    rw [List.length_eq_zero_iff.1 hlen.symm]
    exact iff_of_false (List.not_lt_nil _) (Nat.lt_irrefl _)
  | cons a as ih =>
    obtain ⟨b, bs, rfl⟩ := List.exists_cons_of_length_eq_add_one hlen.symm
    rw [List.forall_mem_cons] at has hbs
    have hlen := Nat.succ.inj hlen
    have hrest : as < bs ↔ placeValue base (as.map digit) < placeValue base (bs.map digit) :=
      ih hlen has.2 hbs.2
    rw [List.cons_lt_cons_iff, hlt a b has.1 hbs.1, heq a b has.1 hbs.1, hrest, List.map_cons,
      List.map_cons, placeValue_cons, placeValue_cons, List.length_map, List.length_map, hlen]
    -- the first place decides, and the others where the first ones agree
    rw [← Nat.compare_eq_lt (a := _ + _), RingId.compare_numeral (hlen ▸ hrow has.2) (hrow hbs.2),
      Ordering.then_eq_lt, Nat.compare_eq_lt, Nat.compare_eq_eq, Nat.compare_eq_lt]

/-! ## Words -/

/-- The number that bytes denote, the most significant first. -/
def bytesValue (bytes : List UInt8) : Nat := placeValue 256 (bytes.map UInt8.toNat)

theorem bytesValue_append (as bs : List UInt8) :
    bytesValue (as ++ bs) = bytesValue as * 256 ^ bs.length + bytesValue bs := by
  rw [bytesValue, List.map_append, placeValue_append, List.length_map, ← bytesValue, ← bytesValue]

theorem lt_of_mem_bytes {bytes : List UInt8} {d : Nat} (h : d ∈ bytes.map UInt8.toNat) : d < 256 := by
  obtain ⟨b, -, rfl⟩ := List.mem_map.1 h
  exact b.toNat_lt

theorem bytesValue_lt (bytes : List UInt8) : bytesValue bytes < 256 ^ bytes.length := by
  have h := placeValue_lt (by decide) fun d (hd : d ∈ bytes.map UInt8.toNat) => lt_of_mem_bytes hd
  rwa [List.length_map] at h

theorem bytesValue_injective {as bs : List UInt8} (hlen : as.length = bs.length)
    (h : bytesValue as = bytesValue bs) : as = bs := by
  have hmap : as.map UInt8.toNat = bs.map UInt8.toNat :=
    placeValue_injective (by decide) (by simpa using hlen) (fun _ => lt_of_mem_bytes)
      (fun _ => lt_of_mem_bytes) h
  exact List.map_injective_iff.2 (fun _ _ => UInt8.toNat_inj.1) hmap

/-- Byte strings of one length stand in the order of their numbers. -/
theorem lt_iff_bytesValue_lt {as bs : List UInt8} (hlen : as.length = bs.length) :
    as < bs ↔ bytesValue as < bytesValue bs :=
  lt_iff_placeValue_lt (p := fun _ => True) (by decide) (fun b _ => b.toNat_lt)
    (fun _ _ _ _ => UInt8.lt_iff_toNat_lt) (fun _ _ _ _ => UInt8.toNat_inj.symm) hlen
    (fun _ _ => trivial) fun _ _ => trivial

end Text

namespace RingId

open Text

theorem length_wordBytes (w : UInt64) : (wordBytes w).length = 8 := rfl

theorem bytesValue_wordBytes (w : UInt64) : bytesValue (wordBytes w) = w.toNat := by
  have hw := w.toNat_lt
  simp only [bytesValue, placeValue, wordBytes, List.map_cons, List.map_nil, List.reverse_cons,
    List.reverse_nil, List.nil_append, List.cons_append, Nat.ofDigits, Nat.cast_id, UInt64.toNat_toUInt8,
    UInt64.toNat_shiftRight, UInt64.reduceToNat, Nat.reduceMod, Nat.shiftRight_eq_div_pow, Nat.reducePow]
  omega

/-- A byte is taken in behind a word that leaves room for it. -/
theorem toNat_shiftIn {w : UInt64} (hw : w.toNat < 2 ^ 56) (b : UInt8) :
    ((w <<< 8) ||| b.toUInt64).toNat = w.toNat * 256 + b.toNat := by
  have hb : b.toNat < 2 ^ 8 := b.toNat_lt
  have hshift : (w <<< 8).toNat = w.toNat <<< 8 := by
    rw [UInt64.toNat_shiftLeft, Nat.mod_eq_of_lt]
    · rfl
    · show w.toNat <<< 8 < 2 ^ 64
      rw [Nat.shiftLeft_eq]
      omega
  rw [UInt64.toNat_or, hshift, UInt8.toNat_toUInt64, ← Nat.shiftLeft_add_eq_or_of_lt hb, Nat.shiftLeft_eq]

theorem toNat_wordOfBytes {bytes : List UInt8} (h : bytes.length ≤ 8) :
    (wordOfBytes bytes).toNat = bytesValue bytes := by
  induction bytes using List.reverseRecOn with
  | nil => rfl
  | append_singleton bytes b ih =>
    rw [List.length_append, List.length_singleton] at h
    have hlt : bytesValue bytes < 2 ^ 56 :=
      Nat.lt_of_lt_of_le (bytesValue_lt bytes)
        (Nat.pow_le_pow_right (by decide) (show bytes.length ≤ 7 by omega))
    have hrest := ih (by omega)
    rw [wordOfBytes, List.foldl_append, ← wordOfBytes, List.foldl_cons, List.foldl_nil,
      toNat_shiftIn (hrest ▸ hlt), hrest, bytesValue_append]
    rfl

theorem wordBytes_wordOfBytes {bytes : List UInt8} (h : bytes.length = 8) :
    wordBytes (wordOfBytes bytes) = bytes := by
  apply bytesValue_injective (h ▸ length_wordBytes _)
  rw [bytesValue_wordBytes, toNat_wordOfBytes (Nat.le_of_eq h)]

/-! ## Points -/

theorem length_toBytes (x : RingId) : x.toBytes.length = 32 := rfl

theorem bytesValue_toBytes (x : RingId) : bytesValue x.toBytes = x.val := by
  simp only [toBytes, bytesValue_append, bytesValue_wordBytes, length_wordBytes]
  rfl

/-- 32 bytes are four times eight. -/
theorem eights_append {bytes : List UInt8} (h : bytes.length = 32) :
    bytes.take 8 ++ (bytes.drop 8).take 8 ++ (bytes.drop 16).take 8 ++ (bytes.drop 24).take 8
      = bytes := by
  have h2 : (bytes.drop 8).take 8 ++ bytes.drop 16 = bytes.drop 8 := by
    have h := List.take_append_drop 8 (bytes.drop 8)
    rwa [List.drop_drop] at h
  have h1 : (bytes.drop 16).take 8 ++ bytes.drop 24 = bytes.drop 16 := by
    have h := List.take_append_drop 8 (bytes.drop 16)
    rwa [List.drop_drop] at h
  have h0 : (bytes.drop 24).take 8 = bytes.drop 24 := by
    apply List.take_of_length_le
    simp [h]
  rw [h0, List.append_assoc, List.append_assoc, h1, h2, List.take_append_drop]

/-- Bytes that are read are written back. -/
theorem toBytes_ofFullBytes {bytes : List UInt8} (h : bytes.length = 32) :
    toBytes (ofFullBytes bytes) = bytes := by
  have h3 : (bytes.take 8).length = 8 := by simp [h]
  have h2 : ((bytes.drop 8).take 8).length = 8 := by simp [h]
  have h1 : ((bytes.drop 16).take 8).length = 8 := by simp [h]
  have h0 : ((bytes.drop 24).take 8).length = 8 := by simp [h]
  rw [toBytes, ofFullBytes, wordBytes_wordOfBytes h3, wordBytes_wordOfBytes h2,
    wordBytes_wordOfBytes h1, wordBytes_wordOfBytes h0, eights_append h]

theorem val_ofFullBytes {bytes : List UInt8} (h : bytes.length = 32) :
    (ofFullBytes bytes).val = bytesValue bytes := by
  rw [← bytesValue_toBytes, toBytes_ofFullBytes h]

/-- A point that is written is read back. -/
theorem ofFullBytes_toBytes (x : RingId) : ofFullBytes x.toBytes = x := by
  apply val_injective
  rw [val_ofFullBytes (length_toBytes x), bytesValue_toBytes]

/-- Zeros in front change no number. -/
theorem bytesValue_zeros (k : Nat) (bytes : List UInt8) :
    bytesValue (List.replicate k 0 ++ bytes) = bytesValue bytes := by
  rw [bytesValue, List.map_append, List.map_replicate]
  exact placeValue_zeros k _

/-- Up to 32 bytes are read as the point of their number. -/
theorem ofBytes_eq_ok_iff {bytes : List UInt8} {x : RingId} :
    ofBytes bytes = .ok x ↔ bytes.length ≤ 32 ∧ x.val = bytesValue bytes := by
  unfold ofBytes
  split
  · next h =>
    have hlen : (List.replicate (32 - bytes.length) 0 ++ bytes).length = 32 := by
      simp
      omega
    rw [Except.ok.injEq, ← val_inj, val_ofFullBytes hlen, bytesValue_zeros, eq_comm]
    exact (and_iff_right h).symm
  · next h => exact iff_of_false nofun fun hx => h hx.1

theorem exists_ofBytes_eq_ok {bytes : List UInt8} (h : bytes.length ≤ 32) :
    ∃ x, ofBytes bytes = .ok x := by
  have hlt : bytesValue bytes < 2 ^ 256 :=
    Nat.lt_of_lt_of_le (bytesValue_lt bytes) (Nat.pow_le_pow_right (by decide) h)
  obtain ⟨x, hx⟩ := exists_val_eq hlt
  exact ⟨x, ofBytes_eq_ok_iff.2 ⟨h, hx⟩⟩

/-! ## Digits -/

end RingId

namespace Text

/-- The value of a hexadecimal digit. -/
def hexDigitValue (c : Char) : Nat := (hexValue? c).getD 0

/-- A hexadecimal digit that is no capital letter. -/
def IsHexDigit (c : Char) : Prop := c.isDigit ∨ 'a' ≤ c ∧ c ≤ 'f'

theorem hexDigit_mod (n : Nat) : hexDigit (n % 16) = hexDigit n := by
  rw [hexDigit, Nat.mod_mod, ← hexDigit]

/-- A digit that is written is read as its value. -/
theorem hexValue?_hexDigit (n : Nat) : hexValue? (hexDigit n) = some (n % 16) := by
  have h : ∀ r < 16, hexValue? (hexDigit r) = some r := by decide
  rw [← hexDigit_mod]
  exact h _ (Nat.mod_lt n (by decide))

theorem hexDigitValue_hexDigit (n : Nat) : hexDigitValue (hexDigit n) = n % 16 := by
  rw [hexDigitValue, hexValue?_hexDigit]
  rfl

theorem isHexDigit_hexDigit (n : Nat) : IsHexDigit (hexDigit n) := by
  have h : ∀ r < 16, (hexDigit r).isDigit ∨ 'a' ≤ hexDigit r ∧ hexDigit r ≤ 'f' := by decide
  rw [← hexDigit_mod]
  exact h _ (Nat.mod_lt n (by decide))

/-- The digits are in the order of their characters. -/
theorem hexDigit_lt_iff (m n : Nat) : hexDigit m < hexDigit n ↔ m % 16 < n % 16 := by
  have h : ∀ r < 16, ∀ q < 16, hexDigit r < hexDigit q ↔ r < q := by decide
  rw [← hexDigit_mod m, ← hexDigit_mod n]
  exact h _ (Nat.mod_lt m (by decide)) _ (Nat.mod_lt n (by decide))

theorem length_hexOfBytes (bytes : List UInt8) : (hexOfBytes bytes).length = 2 * bytes.length := by
  induction bytes with
  | nil => rfl
  | cons b bytes ih =>
    simp [hexOfBytes] at ih ⊢
    omega

theorem exists_hexDigit {bytes : List UInt8} {c : Char} (h : c ∈ hexOfBytes bytes) :
    ∃ n, c = hexDigit n := by
  simp only [hexOfBytes, List.mem_flatMap, List.mem_cons, List.not_mem_nil, or_false] at h
  obtain ⟨b, -, h | h⟩ := h
  · exact ⟨_, h⟩
  · exact ⟨_, h⟩

/-- Two digits make up a byte. -/
theorem placeValue_hexOfBytes (bytes : List UInt8) :
    placeValue 16 ((hexOfBytes bytes).map hexDigitValue) = bytesValue bytes := by
  induction bytes with
  | nil => rfl
  | cons b bytes ih =>
    have hb : b.toNat < 256 := b.toNat_lt
    have hpow : 16 ^ (hexOfBytes bytes).length = 256 ^ bytes.length := by
      rw [length_hexOfBytes, Nat.pow_mul]
    have hcons : hexOfBytes (b :: bytes)
        = hexDigit (b.toNat / 16) :: hexDigit b.toNat :: hexOfBytes bytes := rfl
    have hsplit : b.toNat / 16 % 16 * 16 + b.toNat % 16 = b.toNat := by omega
    rw [hcons, List.map_cons, List.map_cons, placeValue_cons, placeValue_cons, ih,
      hexDigitValue_hexDigit, hexDigitValue_hexDigit, List.length_cons, List.length_map, Nat.pow_succ,
      hpow, ← List.singleton_append, bytesValue_append, ← Nat.add_assoc, Nat.mul_comm _ 16,
      ← Nat.mul_assoc, ← Nat.add_mul, hsplit]
    rfl

/-- Rows of digits of one length stand in the order of the bytes that they stand for. -/
theorem hexOfBytes_lt_iff {as bs : List UInt8} (hlen : as.length = bs.length) :
    hexOfBytes as < hexOfBytes bs ↔ bytesValue as < bytesValue bs := by
  rw [← placeValue_hexOfBytes, ← placeValue_hexOfBytes]
  refine lt_iff_placeValue_lt (p := fun c => ∃ n, c = hexDigit n) (by decide) ?_ ?_ ?_ ?_
    (fun _ => exists_hexDigit) fun _ => exists_hexDigit
  · rintro _ ⟨n, rfl⟩
    rw [hexDigitValue_hexDigit]
    exact Nat.mod_lt n (by decide)
  · rintro _ _ ⟨m, rfl⟩ ⟨n, rfl⟩
    rw [hexDigitValue_hexDigit, hexDigitValue_hexDigit, hexDigit_lt_iff]
  · rintro _ _ ⟨m, rfl⟩ ⟨n, rfl⟩
    rw [hexDigitValue_hexDigit, hexDigitValue_hexDigit]
    constructor
    · intro h
      rw [← hexDigitValue_hexDigit, h, hexDigitValue_hexDigit]
    · intro h
      rw [← hexDigit_mod, h, hexDigit_mod]
  · rw [length_hexOfBytes, length_hexOfBytes, hlen]

end Text

/-! ## All forms -/

namespace RingId

open Text

theorem toBytes_lt_iff {x y : RingId} : x.toBytes < y.toBytes ↔ x < y := by
  rw [lt_iff_bytesValue_lt ((length_toBytes x).trans (length_toBytes y).symm), bytesValue_toBytes,
    bytesValue_toBytes, lt_iff_val_lt]

theorem hex_lt_iff {x y : RingId} : x.hex < y.hex ↔ x < y := by
  show (String.ofList _).toList < (String.ofList _).toList ↔ _
  rw [String.toList_ofList, String.toList_ofList,
    hexOfBytes_lt_iff ((length_toBytes x).trans (length_toBytes y).symm), bytesValue_toBytes,
    bytesValue_toBytes, lt_iff_val_lt]

/-- The written forms of points are faithful. Up to 32 bytes are read, as the point of their number, to which
    zeros in front add nothing; the 32 bytes of a point and the point of 32 bytes determine each other; and
    points, their bytes and their 64 hexadecimal digits are ordered alike. -/
theorem forms_faithful :
    (∀ bytes : List UInt8,
      ((∃ x, ofBytes bytes = .ok x) ↔ bytes.length ≤ 32) ∧
      (∀ x, ofBytes bytes = .ok x ↔ bytes.length ≤ 32 ∧ x.val = bytesValue bytes) ∧
      ∀ k, k + bytes.length ≤ 32 → ofBytes (List.replicate k 0 ++ bytes) = ofBytes bytes) ∧
    (∀ x : RingId, x.toBytes.length = 32 ∧ ofFullBytes x.toBytes = x) ∧
    (∀ bytes : List UInt8, bytes.length = 32 → toBytes (ofFullBytes bytes) = bytes) ∧
    (∀ x y : RingId, (x < y ↔ x.hex < y.hex) ∧ (x < y ↔ x.toBytes < y.toBytes)) ∧
    ∀ x : RingId, x.hex.length = 64 ∧ ∀ c ∈ x.hex.toList, IsHexDigit c := by
  refine ⟨fun bytes => ⟨⟨?_, exists_ofBytes_eq_ok⟩, fun x => ofBytes_eq_ok_iff, ?_⟩,
    fun x => ⟨length_toBytes x, ofFullBytes_toBytes x⟩, fun bytes => toBytes_ofFullBytes,
    fun x y => ⟨hex_lt_iff.symm, toBytes_lt_iff.symm⟩, fun x => ⟨?_, ?_⟩⟩
  · rintro ⟨x, hx⟩
    exact (ofBytes_eq_ok_iff.1 hx).1
  · intro k hk
    obtain ⟨x, hx⟩ := exists_ofBytes_eq_ok (show bytes.length ≤ 32 by omega)
    rw [hx, ofBytes_eq_ok_iff, bytesValue_zeros]
    refine ⟨?_, (ofBytes_eq_ok_iff.1 hx).2⟩
    simpa using hk
  · rw [hex, String.length_ofList, length_hexOfBytes, length_toBytes]
  · intro c hc
    rw [hex, String.toList_ofList] at hc
    obtain ⟨n, rfl⟩ := exists_hexDigit hc
    exact isHexDigit_hexDigit n

/-- Two bytes with zeros in front, and 32 bytes that are read and written back. -/
theorem forms_faithful_padded :
    ofBytes (List.replicate 30 0 ++ [1, 0]) = ofBytes [1, 0] ∧
      toBytes (ofFullBytes (List.replicate 16 0xff ++ List.replicate 16 1))
        = List.replicate 16 0xff ++ List.replicate 16 1 :=
  ⟨(forms_faithful.1 [1, 0]).2.2 30 (by decide), forms_faithful.2.2.1 _ (by decide)⟩

end RingId

end RingOverlay
