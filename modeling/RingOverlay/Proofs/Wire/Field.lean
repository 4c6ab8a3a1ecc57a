import Mathlib.Algebra.Group.Nat.Defs
import RingOverlay.Wire.Message

/-!
# `Wire.Field` — what is written as a field is read as that field

A writer and the length that is told for it go over a value apart from each other, and the reader knows
neither. `Spells depth bytes fs` says that the reader finds the fields `fs` in `bytes`, whatever other fields
stand behind them; so fields that are written one behind the other are found one behind the other, and
each kind of field needs one lemma. A number must fit into 64 bits, for the reader takes no longer one.

## Contents
- **Lengths.** `length_…`, one for each writer.
- **Numbers and keys.** `readVarint_writeVarint`, `readKey_writeKey`.
- **Fields.** `Spells`, `Spells.append`; `spells_varint`, `spells_delimited`.
- **Values.** What `putText`, `putCount` and `putStamp` make of a value that was written.
-/

namespace RingOverlay.Wire

/-! ## Lengths -/

theorem length_writeVarint (n : Nat) : (writeVarint n).length = varintLength n := by
  fun_induction writeVarint n with
  | case1 n h => simp [varintLength, h]
  | case2 n h ih => rw [varintLength, if_neg h, List.length_cons, ih]

/-- The kind of a field does not add to the length of its key. -/
theorem length_writeKey (tag : Nat) (kind : Kind) : (writeKey tag kind).length = keyLength tag := by
  have hkind : kind.toNat < 8 := by cases kind <;> decide
  have hdiv : (tag * 8 + kind.toNat) / 128 = tag * 8 / 128 := by omega
  have hlt : tag * 8 + kind.toNat < 128 ↔ tag * 8 < 128 := by omega
  rw [writeKey, length_writeVarint, keyLength, varintLength.eq_def (tag * 8 + kind.toNat),
    varintLength.eq_def (tag * 8), hdiv]
  simp only [hlt]

theorem length_writeDelimited (bytes : List UInt8) :
    (writeDelimited bytes).length = varintLength bytes.length + bytes.length := by
  rw [writeDelimited, List.length_append, length_writeVarint]

theorem length_textBytes (s : String) : (textBytes s).length = s.utf8ByteSize :=
  Array.length_toList

theorem length_writeText (tag : Nat) (s : String) : (writeText tag s).length = textLength tag s := by
  unfold writeText textLength
  split
  · rfl
  · rw [List.length_append, length_writeKey, length_writeDelimited, length_textBytes, Nat.add_assoc]

theorem length_writeCount (tag : Nat) (n : UInt32) :
    (writeCount tag n).length = countLength tag n := by
  unfold writeCount countLength
  split
  · rfl
  · rw [List.length_append, length_writeKey, length_writeVarint]

theorem length_writeStamp (tag : Nat) (n : Int64) :
    (writeStamp tag n).length = stampLength tag n := by
  unfold writeStamp stampLength
  split
  · rfl
  · rw [List.length_append, length_writeKey, length_writeVarint]

theorem length_writeNested (tag : Nat) (message : Option (List UInt8)) :
    (writeNested tag message).length = nestedLength tag (message.map List.length) := by
  cases message with
  | none => rfl
  | some bytes =>
    rw [writeNested, Option.map_some, nestedLength, List.length_append, length_writeKey,
      length_writeDelimited, Nat.add_assoc]

/-! ## Numbers and keys -/

/-- Seven bits go into each byte, and one bit into the last byte that there is room for. -/
theorem readVarintIn_writeVarint {room n : Nat} (h : n < 2 * 128 ^ room) (rest : List UInt8) :
    readVarintIn (room + 1) (writeVarint n ++ rest) = some (n, rest) := by
  induction room generalizing n with
  | zero =>
    have hn : n < 2 := by omega
    have hbyte : (UInt8.ofNat n).toNat = n := UInt8.toNat_ofNat'.trans (Nat.mod_eq_of_lt (by omega))
    rw [writeVarint, if_pos (by omega), List.singleton_append, readVarintIn, hbyte,
      if_pos (by omega), if_neg (by omega)]
  | succ room ih =>
    by_cases hn : n < 128
    · have hbyte : (UInt8.ofNat n).toNat = n := UInt8.toNat_ofNat'.trans (Nat.mod_eq_of_lt (by omega))
      rw [writeVarint, if_pos hn, List.singleton_append, readVarintIn, hbyte, if_pos hn,
        if_neg (by omega)]
    · have hbyte : (UInt8.ofNat (n % 128 + 128)).toNat = n % 128 + 128 :=
        UInt8.toNat_ofNat'.trans (Nat.mod_eq_of_lt (by omega))
      have hrec : n / 128 < 2 * 128 ^ room := by
        rw [Nat.pow_succ] at h
        omega
      rw [writeVarint, if_neg hn, List.cons_append, readVarintIn, hbyte, if_neg (by omega), ih hrec]
      show some ((n % 128 + 128) % 128 + 128 * (n / 128), rest) = some (n, rest)
      rw [Nat.add_mod_right, Nat.mod_mod, Nat.mod_add_div]

theorem readVarint_writeVarint {n : Nat} (h : n < 2 ^ 64) (rest : List UInt8) :
    readVarint (writeVarint n ++ rest) = some (n, rest) := by
  have hroom : n < 2 * 128 ^ 9 := by omega
  exact readVarintIn_writeVarint hroom rest

theorem readKey_writeKey {tag : Nat} (h : 0 < tag) (hlt : tag < 2 ^ 29) (kind : Kind)
    (rest : List UInt8) : readKey (writeKey tag kind ++ rest) = some ((tag, kind), rest) := by
  have hkind : kind.toNat < 8 ∧ Kind.ofNat? kind.toNat = some kind := by cases kind <;> decide
  obtain ⟨hk8, hk⟩ := hkind
  have hmod : (tag * 8 + kind.toNat) % 8 = kind.toNat := by omega
  have hdiv : (tag * 8 + kind.toNat) / 8 = tag := by omega
  unfold readKey
  rw [writeKey, readVarint_writeVarint (by omega)]
  simp only [Option.bind_eq_bind, Option.bind_some, hmod, hdiv, hk]
  rw [if_neg (by omega), if_neg (by omega)]
  rfl

/-! ## Fields -/

section Fields

variable {depth tag : Nat} {bytes bytes' : List UInt8} {fs fs' : List (Nat × Value)}

theorem readFieldsIn_nil (depth fuel : Nat) : readFieldsIn depth fuel [] = some [] := by
  cases fuel <;> rfl

/-- One field in front of others. -/
theorem readFieldsIn_field {fuel : Nat} {kind : Kind} {value : Value} {rest rest' : List UInt8}
    (hkey : readKey bytes = some ((tag, kind), rest))
    (hvalue : readValue depth tag kind rest = some (value, rest'))
    (hrest : readFieldsIn depth fuel rest' = some fs) :
    readFieldsIn depth (fuel + 1) bytes = some ((tag, value) :: fs) := by
  cases bytes with
  | nil => cases hkey
  | cons b bytes => simp [readFieldsIn, hkey, hvalue, hrest]

/-- What was read with some fuel is read with more. -/
theorem readFieldsIn_mono {fuel : Nat} (h : readFieldsIn depth fuel bytes = some fs) {fuel' : Nat}
    (hle : fuel ≤ fuel') : readFieldsIn depth fuel' bytes = some fs := by
  induction fuel generalizing bytes fs fuel' with
  | zero =>
    cases bytes with
    | nil => simpa only [readFieldsIn_nil] using h
    | cons b bytes => cases h
  | succ fuel ih =>
    cases bytes with
    | nil => simpa only [readFieldsIn_nil] using h
    | cons b bytes =>
      obtain ⟨fuel', rfl⟩ := Nat.exists_eq_add_of_le' (Nat.le_trans (Nat.succ_pos fuel) hle)
      simp only [readFieldsIn, Option.bind_eq_bind, Option.bind_eq_some_iff] at h
      obtain ⟨⟨⟨tag, kind⟩, rest⟩, hkey, ⟨value, rest'⟩, hvalue, fields, hfields, hfs⟩ := h
      cases hfs
      exact readFieldsIn_field hkey hvalue (ih hfields (by omega))

/-- The reader finds the fields `fs` in `bytes`, whatever fields stand behind them. -/
def Spells (depth : Nat) (bytes : List UInt8) (fs : List (Nat × Value)) : Prop :=
  ∀ rest fs', readFields depth rest = some fs' → readFields depth (bytes ++ rest) = some (fs ++ fs')

theorem spells_nil : Spells depth [] [] := fun _ _ h => h

theorem Spells.append (h : Spells depth bytes fs) (h' : Spells depth bytes' fs') :
    Spells depth (bytes ++ bytes') (fs ++ fs') := by
  intro rest more hrest
  rw [List.append_assoc, List.append_assoc]
  exact h _ _ (h' _ _ hrest)

theorem Spells.readFields (h : Spells depth bytes fs) : readFields depth bytes = some fs := by
  have hall := h [] [] rfl
  rw [List.append_nil, List.append_nil] at hall
  exact hall

/-- A key and a value that is read from what stands behind the key. -/
theorem spells_field (htag : 0 < tag) (hlt : tag < 2 ^ 29) {kind : Kind} {value : Value}
    (hvalue : ∀ rest, readValue depth tag kind (bytes ++ rest) = some (value, rest)) :
    Spells depth (writeKey tag kind ++ bytes) [(tag, value)] := by
  intro rest fs' hrest
  have hpos : 0 < (writeKey tag kind).length := by
    rw [length_writeKey, keyLength, varintLength]
    split <;> omega
  have hlen : rest.length + 1 ≤ (writeKey tag kind ++ (bytes ++ rest)).length := by
    rw [List.length_append, List.length_append]
    omega
  rw [List.append_assoc]
  -- the reader has a step for each byte, so it has enough for the fields behind this one
  exact readFieldsIn_mono (readFieldsIn_field (readKey_writeKey htag hlt kind _) (hvalue rest) hrest) hlen

theorem spells_varint (htag : 0 < tag) (hlt : tag < 2 ^ 29) {n : Nat} (hn : n < 2 ^ 64) :
    Spells depth (writeKey tag .varint ++ writeVarint n) [(tag, .varint n)] := by
  refine spells_field htag hlt fun rest => ?_
  rw [readValue, readVarint_writeVarint hn]
  rfl

theorem spells_delimited (htag : 0 < tag) (hlt : tag < 2 ^ 29) (hn : bytes.length < 2 ^ 64) :
    Spells depth (writeKey tag .delimited ++ writeDelimited bytes) [(tag, .delimited bytes)] := by
  refine spells_field htag hlt fun rest => ?_
  have hle : bytes.length ≤ (bytes ++ rest).length := by
    rw [List.length_append]
    exact Nat.le_add_right ..
  rw [readValue, writeDelimited, List.append_assoc, readVarint_writeVarint hn]
  simp only [Option.bind_eq_bind, Option.bind_some]
  rw [if_pos hle, List.take_left, List.drop_left]
  rfl

end Fields

/-! ## Values -/

theorem textOfBytes?_textBytes (s : String) : textOfBytes? (textBytes s) = some s :=
  dif_pos s.isValidUTF8

theorem putText_textBytes (s : String) : putText (.delimited (textBytes s)) = some s :=
  textOfBytes?_textBytes s

theorem putCount_toNat (n : UInt32) : putCount (.varint n.toNat) = some n :=
  congrArg some UInt32.ofNat_toNat

/-- A time stamp comes back from its two's complement. -/
theorem putStamp_toNat (n : Int64) : putStamp (.varint n.toUInt64.toNat) = some n := by
  rw [putStamp, UInt64.ofNat_toNat, Int64.toInt64_toUInt64]

end RingOverlay.Wire
