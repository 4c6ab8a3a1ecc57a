import RingOverlay.Json.Text
import RingOverlay.Proofs.RingId.Numeral

/-!
# `Json.Grammar` — which texts are JSON

The readers take characters off one after another and know no grammar. Here is what JSON texts are, apart
from any reader: relations between texts, and between the text of a string or an integer and what it denotes.
Blanks belong to no value; they stand around tokens.

## Contents
- **Blanks.** `Blank`, and `Delimited` for what may follow a value.
- **Strings.** `Spells`, the characters that the inside of a string denotes; `IsBody`, where it is only asked
  whether it is one. A unit of a pair without the other one is allowed in a body and denotes nothing.
- **Numbers.** `IsInteger` for a natural number and its text, `IsUnsigned` for the text of any number.
- **Objects and lists.** `Member`, `Members`, `Items`: what is written in them, in its order.
- **Values.** `IsValue`, and `IsObject` for an object with its members.
-/

namespace RingOverlay.Json

open Text

/-! ## Blanks -/

/-- A text that says nothing. -/
def Blank (cs : List Char) : Prop := ∀ c ∈ cs, isBlank c

/-- What may follow a value: the end of the text, a blank, or what ends an item or a frame. -/
def Delimited (rest : List Char) : Prop :=
  ∀ c, rest.head? = some c → isBlank c ∨ c = ',' ∨ c = ']' ∨ c = '\x7d'

/-! ## Strings -/

/-- The letters of short escapes, each with the character that is meant. -/
def shortEscapes : List (Char × Char) :=
  [('"', '"'), ('\\', '\\'), ('/', '/'), ('b', '\x08'), ('f', '\x0c'), ('n', '\n'), ('r', '\r'),
    ('t', '\t')]

/-- Four hexadecimal digits of either case, and the 16-bit unit that they denote. -/
inductive IsUnit : List Char → Nat → Prop
  | intro {a b c d : Char} {p q r s : Nat} (ha : hexValue? a = some p) (hb : hexValue? b = some q)
      (hc : hexValue? c = some r) (hd : hexValue? d = some s) :
      IsUnit [a, b, c, d] (((p * 16 + q) * 16 + r) * 16 + s)

/-- A character that stands for itself in a string. -/
def IsPlain (c : Char) : Prop := ' ' ≤ c ∧ c ≠ '"' ∧ c ≠ '\\'

/-- The characters that the inside of a string denotes. Two escaped units of a pair denote one character. -/
inductive Spells : List Char → List Char → Prop
  | nil : Spells [] []
  | plain {c : Char} {cs s : List Char} (hc : IsPlain c) (h : Spells cs s) :
      Spells (c :: cs) (c :: s)
  | short {e d : Char} {cs s : List Char} (he : (e, d) ∈ shortEscapes) (h : Spells cs s) :
      Spells ('\\' :: e :: cs) (d :: s)
  | unit {quad : List Char} {n : Nat} {cs s : List Char} (hn : IsUnit quad n)
      (hlone : n < 0xd800 ∨ 0xe000 ≤ n) (h : Spells cs s) :
      Spells ('\\' :: 'u' :: (quad ++ cs)) (Char.ofNat n :: s)
  | pair {quad quad' : List Char} {m n : Nat} {cs s : List Char} (hm : IsUnit quad m)
      (hn : IsUnit quad' n) (hleading : 0xd800 ≤ m ∧ m < 0xdc00) (htrailing : 0xdc00 ≤ n ∧ n < 0xe000)
      (h : Spells cs s) :
      Spells ('\\' :: 'u' :: (quad ++ '\\' :: 'u' :: (quad' ++ cs)))
        (Char.ofNat ((m - 0xd800) * 0x400 + (n - 0xdc00) + 0x10000) :: s)

/-- The inside of a string. -/
inductive IsBody : List Char → Prop
  | nil : IsBody []
  | plain {c : Char} {cs : List Char} (hc : IsPlain c) (h : IsBody cs) : IsBody (c :: cs)
  | short {e d : Char} {cs : List Char} (he : (e, d) ∈ shortEscapes) (h : IsBody cs) :
      IsBody ('\\' :: e :: cs)
  | unit {quad : List Char} {n : Nat} {cs : List Char} (hn : IsUnit quad n) (h : IsBody cs) :
      IsBody ('\\' :: 'u' :: (quad ++ cs))

/-- The text of a string between its quotes. -/
def between (body : List Char) : List Char := '"' :: (body ++ ['"'])

/-- The text of a string. -/
def IsString (cs : List Char) (s : String) : Prop :=
  ∃ body, cs = between body ∧ Spells body s.toList

theorem Spells.isBody {cs s : List Char} (h : Spells cs s) : IsBody cs := by
  induction h with
  | nil => exact .nil
  | plain hc _ ih => exact .plain hc ih
  | short he _ ih => exact .short he ih
  | unit hn _ _ ih => exact .unit hn ih
  | pair hm hn _ _ _ ih => exact .unit hm (.unit hn ih)

/-! ## Numbers -/

/-- The text of a natural number: digits without superfluous zeros. -/
structure IsInteger (cs : List Char) (n : Nat) : Prop where
  canonical : IsCanonical cs
  value : numeralValue cs = n

/-- A sign or none. -/
def IsSign (cs : List Char) : Prop := cs = [] ∨ cs = ['+'] ∨ cs = ['-']

/-- The digits behind a point, with the point. -/
def IsFraction (cs : List Char) : Prop := ∃ ds, cs = '.' :: ds ∧ IsNumeral ds

/-- An exponent with its letter. -/
def IsExponent (cs : List Char) : Prop :=
  ∃ e sign ds, cs = e :: (sign ++ ds) ∧ (e = 'e' ∨ e = 'E') ∧ IsSign sign ∧ IsNumeral ds

/-- The text of a number behind its sign. -/
inductive IsUnsigned : List Char → Prop
  | intro {int fraction exponent : List Char} (hint : IsCanonical int)
      (hfraction : fraction = [] ∨ IsFraction fraction)
      (hexponent : exponent = [] ∨ IsExponent exponent) :
      IsUnsigned (int ++ (fraction ++ exponent))

/-! ## Objects and lists -/

/-- A member of an object as it is written: the inside of its name, and its value. -/
structure Member where
  key : List Char
  value : List Char

/-- The text of a member, with blanks in front of its tokens. -/
inductive IsMember (p : List Char → Prop) : Member → List Char → Prop
  | intro {key value gap gap' gap'' : List Char} (hkey : IsBody key) (hvalue : p value)
      (hgap : Blank gap) (hgap' : Blank gap') (hgap'' : Blank gap'') :
      IsMember p ⟨key, value⟩ (gap ++ (between key ++ (gap' ++ ':' :: (gap'' ++ value))))

/-- The text of members one behind the other. `first` tells whether nothing stands in front of them, so that no
    comma is due. -/
inductive Members (p : List Char → Prop) : Bool → List Member → List Char → Prop
  | nil {first : Bool} : Members p first [] []
  | first {m : Member} {ms : List Member} {cs rest : List Char} (h : IsMember p m cs)
      (hrest : Members p false ms rest) : Members p true (m :: ms) (cs ++ rest)
  | next {m : Member} {ms : List Member} {gap cs rest : List Char} (hgap : Blank gap)
      (h : IsMember p m cs) (hrest : Members p false ms rest) :
      Members p false (m :: ms) (gap ++ ',' :: (cs ++ rest))

/-- The text of items one behind the other, with blanks in front of their tokens. -/
inductive Items (p : List Char → Prop) : Bool → List Char → Prop
  | nil {first : Bool} : Items p first []
  | first {gap cs rest : List Char} (hgap : Blank gap) (h : p cs) (hrest : Items p false rest) :
      Items p true (gap ++ (cs ++ rest))
  | next {gap gap' cs rest : List Char} (hgap : Blank gap) (hgap' : Blank gap') (h : p cs)
      (hrest : Items p false rest) : Items p false (gap ++ ',' :: (gap' ++ (cs ++ rest)))

/-! ## Values -/

/-- The text of a value, without blanks around it. -/
inductive IsValue : List Char → Prop
  | literal {cs : List Char} (h : cs ∈ ["null".toList, "true".toList, "false".toList]) : IsValue cs
  | positive {cs : List Char} (h : IsUnsigned cs) : IsValue cs
  | negative {cs : List Char} (h : IsUnsigned cs) : IsValue ('-' :: cs)
  | string {body : List Char} (h : IsBody body) : IsValue (between body)
  | list {cs gap : List Char} (h : Items IsValue true cs) (hgap : Blank gap) :
      IsValue ('[' :: (cs ++ (gap ++ [']'])))
  | object {ms : List Member} {cs gap : List Char} (h : Members IsValue true ms cs)
      (hgap : Blank gap) : IsValue ('\x7b' :: (cs ++ (gap ++ ['\x7d'])))

/-- The text of an object with these members. -/
inductive IsObject : List Member → List Char → Prop
  | intro {ms : List Member} {cs gap : List Char} (h : Members IsValue true ms cs)
      (hgap : Blank gap) : IsObject ms ('\x7b' :: (cs ++ (gap ++ ['\x7d'])))

end RingOverlay.Json
