import RingOverlay.Json.Node
import RingOverlay.Proofs.Json.Number
import RingOverlay.Proofs.Json.Text

/-!
# `Json.Value` — a reader of one type takes exactly its value

Two properties say all that records need of the readers of their fields. A reader *reads* the texts of its type,
wherever they stand; and it is *exact*: in front of any value it fails, or it takes that value off and nothing
more. The first character of a value tells which kind it has.

## Contents
- **First characters.** `Opens`, what each of them tells; `IsValue.opens`.
- **Readers of one type.** `Reads`, `Exact`.
- **Types.** `reads_string`, `reads_natural`, `reads_nullable`, `reads_ringId`, and `exact_…` for each of them.
-/

namespace RingOverlay.Json

open Text

variable {α β : Type} {v : List Char}

/-! ## First characters -/

theorem IsUnsigned.exists_cons (h : IsUnsigned v) : ∃ c t, v = c :: t ∧ c.isDigit := by
  cases h with
  | @intro int fraction exponent hint hfraction hexponent =>
    cases int with
    | nil => exact absurd rfl hint.ne_nil
    | cons c int => exact ⟨c, _, rfl, hint.isDigit c List.mem_cons_self⟩

/-- What is known of a value by the character that it starts with. -/
inductive Opens : Char → List Char → Prop
  | null : Opens 'n' "ull".toList
  | boolean {c : Char} {t : List Char} (hc : c = 't' ∨ c = 'f') : Opens c t
  | digit {c : Char} {t : List Char} (hc : c.isDigit) (h : IsUnsigned (c :: t)) : Opens c t
  | minus {t : List Char} : Opens '-' t
  | quote {body : List Char} (h : IsBody body) : Opens '"' (body ++ ['"'])
  | frame {c : Char} {t : List Char} (hc : c = '[' ∨ c = '\x7b') : Opens c t

theorem IsValue.opens (h : IsValue v) : ∃ c t, v = c :: t ∧ Opens c t := by
  cases h with
  | literal h =>
    simp only [List.mem_cons, List.not_mem_nil, or_false] at h
    rcases h with rfl | rfl | rfl
    · exact ⟨'n', _, rfl, .null⟩
    · exact ⟨'t', _, rfl, .boolean (.inl rfl)⟩
    · exact ⟨'f', _, rfl, .boolean (.inr rfl)⟩
  | positive h =>
    obtain ⟨c, t, rfl, hc⟩ := h.exists_cons
    exact ⟨c, t, rfl, .digit hc h⟩
  | negative h => exact ⟨'-', _, rfl, .minus⟩
  | string h => exact ⟨'"', _, rfl, .quote h⟩
  | list h hgap => exact ⟨'[', _, rfl, .frame (.inl rfl)⟩
  | object h hgap => exact ⟨'\x7b', _, rfl, .frame (.inr rfl)⟩

theorem not_isBlank_of_isDigit {c : Char} (hc : c.isDigit) : ¬isBlank c := by
  intro h
  rw [isBlank, decide_eq_true_eq] at h
  rcases h with rfl | rfl | rfl | rfl <;> exact absurd hc (by decide)

theorem Opens.not_isBlank {c : Char} {t : List Char} (h : Opens c t) : ¬isBlank c := by
  cases h with
  | null => decide
  | boolean hc => rcases hc with rfl | rfl <;> decide
  | digit hc => exact not_isBlank_of_isDigit hc
  | minus => decide
  | quote => decide
  | frame hc => rcases hc with rfl | rfl <;> decide

/-! ## Readers of one type -/

/-- The reader makes `a` of the text of a value, wherever that stands. -/
def Reads (r : Reader α) (v : List Char) (a : α) : Prop :=
  ∀ gap rest, Blank gap → Delimited rest → r (gap ++ (v ++ rest)) = .ok (a, rest)

/-- In front of a value, the reader fails or takes off that value and nothing more. -/
def Exact (r : Reader α) : Prop :=
  ∀ v gap rest a rest', IsValue v → Blank gap → Delimited rest →
    r (gap ++ (v ++ rest)) = .ok (a, rest') → rest' = rest

theorem Reads.map {r : Reader α} {a : α} (h : Reads r v a) (f : α → β) :
    Reads (r >>= fun a => pure (f a)) v (f a) := by
  intro gap rest hgap hrest
  rw [bind_of_ok (h gap rest hgap hrest)]
  rfl

theorem Exact.bind {r : Reader α} (h : Exact r) {f : α → Reader β}
    (hf : ∀ a cs b rest, f a cs = .ok (b, rest) → rest = cs) : Exact (r >>= f) := by
  intro v gap rest b rest' hv hgap hrest hb
  obtain ⟨a, cs, ha, hfa⟩ := bind_eq_ok hb
  rw [hf a cs b rest' hfa, h v gap rest a cs hv hgap hrest ha]

theorem Exact.map {r : Reader α} (h : Exact r) (f : α → β) : Exact (r >>= fun a => pure (f a)) := by
  apply h.bind
  intro a cs b rest hb
  cases hb
  rfl

/-- Blanks in front of a value make no difference to the reader. -/
def SkipsBlanks (r : Reader α) : Prop :=
  ∀ gap c t, Blank gap → ¬isBlank c → r (gap ++ c :: t) = r (c :: t)

theorem skipsBlanks_peekToken (f : Option Char → Reader α) : SkipsBlanks (peekToken >>= f) := by
  intro gap c t hgap hc
  rw [bind_of_ok (peekToken_eq hgap hc), ← List.nil_append (c :: t),
    bind_of_ok (peekToken_eq blank_nil hc)]
  rfl

theorem exact_of_opens {r : Reader α} (hskip : SkipsBlanks r)
    (h : ∀ c t rest a rest', Opens c t → Delimited rest → r (c :: (t ++ rest)) = .ok (a, rest') →
      rest' = rest) : Exact r := by
  intro v gap rest a rest' hv hgap hrest ha
  obtain ⟨c, t, rfl, hopens⟩ := hv.opens
  rw [List.cons_append, hskip gap c _ hgap hopens.not_isBlank] at ha
  exact h c t rest a rest' hopens hrest ha

/-- A mismatch is always a fault. -/
theorem yields_mismatch (expected : String) : Yields (mismatch expected : Reader α) fun _ => False := by
  unfold mismatch
  refine Yields.bind fun c => ?_
  split
  all_goals first
    | exact yields_throw _ _
    | exact Yields.bind fun _ => yields_throw _ _
    | skip
  · exact Yields.bind fun _ => Yields.bind fun _ => yields_throw _ _
  · exact Yields.ite (fun _ => Yields.bind fun _ => yields_throw _ _) (fun _ => yields_throw _ _)

/-! ## Types -/

theorem string_cons (expected : String) {gap t : List Char} {c : Char} (hgap : Blank gap) (hc : ¬isBlank c) :
    string expected (gap ++ c :: t)
      = (if c = '"' then stringBody else mismatch expected) (c :: t) := by
  rw [string, bind_of_ok (peekToken_eq hgap hc)]
  simp only [Option.some_inj]

theorem reads_string {s : String} (expected : String) (h : IsString v s) : Reads (string expected) v s := by
  obtain ⟨body, rfl, hbody⟩ := h
  intro gap rest hgap _
  show string expected (gap ++ '"' :: (body ++ ['"'] ++ rest)) = _
  rw [string_cons expected hgap (by decide), if_pos rfl]
  exact stringBody_between hbody

theorem exact_string (expected : String) : Exact (string expected) := by
  apply exact_of_opens
  · exact skipsBlanks_peekToken _
  · intro c t rest s rest' hopens _ h
    rw [← List.nil_append (c :: _), string_cons expected blank_nil hopens.not_isBlank] at h
    split at h
    · next hc =>
      subst hc
      cases hopens with
      | boolean hc => rcases hc with hc | hc <;> exact absurd hc (by decide)
      | digit hc => exact absurd hc (by decide)
      | frame hc => rcases hc with hc | hc <;> exact absurd hc (by decide)
      | quote hbody => exact (stringBody_eq_ok hbody h).2
    · exact absurd (yields_mismatch expected _ _ _ h) id

/-- Only digits make a natural number, and the number that they make has to be small enough. -/
theorem natural_eq_ok_iff {expected : String} {greatest n : Nat} {gap t rest : List Char} {c : Char}
    (hgap : Blank gap) (hc : ¬isBlank c) :
    natural expected greatest (gap ++ c :: t) = .ok (n, rest) ↔
      c.isDigit ∧ readNumber true (c :: t) = .ok (.natural n, rest) ∧ n ≤ greatest := by
  rw [natural, bind_of_ok (peekToken_eq hgap hc)]
  have hskip : skip (c :: t) = .ok ((), t) := rfl
  simp only [Option.some_inj, Option.any_some]
  -- what becomes of the number does not depend on how it was read
  generalize hfinish : (fun x : Number => (_ : Reader Nat)) = finish
  have hok : ∀ x cs, finish x cs = .ok (n, rest) ↔ x = .natural n ∧ n ≤ greatest ∧ cs = rest := by
    intro x cs
    subst hfinish
    cases x with
    | natural m =>
      by_cases hm : m ≤ greatest
      · simp only [if_pos hm, Number.natural.injEq]
        constructor
        · intro h
          cases h
          exact ⟨rfl, hm, rfl⟩
        · rintro ⟨rfl, -, rfl⟩
          rfl
      · simp only [if_neg hm, Number.natural.injEq]
        constructor
        · intro h
          cases h
        · rintro ⟨rfl, hn, -⟩
          exact absurd hn hm
    | negative m => exact ⟨nofun, nofun⟩
    | real x => exact ⟨nofun, nofun⟩
  by_cases hminus : c = '-'
  · subst hminus
    rw [if_pos rfl, bind_of_ok hskip]
    constructor
    · intro h
      obtain ⟨x, cs, hread, hx⟩ := bind_eq_ok h
      obtain ⟨rfl, -, -⟩ := (hok x cs).1 hx
      exact absurd (readNumber_eq_natural hread).1 Bool.false_ne_true
    · rintro ⟨hdigit, -⟩
      exact absurd hdigit (by decide)
  rw [if_neg hminus]
  by_cases hdigit : c.isDigit
  · rw [if_pos hdigit]
    constructor
    · intro h
      obtain ⟨x, cs, hread, hx⟩ := bind_eq_ok h
      obtain ⟨rfl, hn, rfl⟩ := (hok x cs).1 hx
      exact ⟨hdigit, hread, hn⟩
    · rintro ⟨-, hread, hn⟩
      rw [bind_of_ok hread]
      exact (hok _ _).2 ⟨rfl, hn, rfl⟩
  · rw [if_neg hdigit]
    constructor
    · intro h
      obtain ⟨x, cs, hread, -⟩ := bind_eq_ok h
      exact (yields_mismatch expected _ _ _ hread).elim
    · rintro ⟨hd, -⟩
      exact absurd hd hdigit

theorem reads_natural (expected : String) {greatest n : Nat} (h : IsInteger v n) (hn : n ≤ greatest)
    (hgreatest : greatest ≤ maxSignificand) : Reads (natural expected greatest) v n := by
  intro gap rest hgap hrest
  have hread := readNumber_of_isInteger h (Nat.le_trans hn hgreatest) hrest.endsNumber
  cases v with
  | nil => exact absurd rfl h.canonical.ne_nil
  | cons c t =>
    have hdigit := h.canonical.isDigit c List.mem_cons_self
    exact (natural_eq_ok_iff hgap (not_isBlank_of_isDigit hdigit)).2 ⟨hdigit, hread, hn⟩

/-- Digits that are all of a number are followed by what follows the number. -/
theorem IsUnsigned.dropWhile_eq {rest : List Char} (h : IsUnsigned v) (hrest : Delimited rest)
    (hend : EndsNumber ((v ++ rest).dropWhile Char.isDigit)) :
    (v ++ rest).dropWhile Char.isDigit = rest := by
  cases h with
  | @intro int fraction exponent hint hfraction hexponent =>
    rw [List.append_assoc, List.dropWhile_append_of_pos hint.isDigit] at hend ⊢
    rcases hfraction with rfl | ⟨ds, rfl, -⟩
    · rcases hexponent with rfl | ⟨e, sign, ds, rfl, he, -, -⟩
      · exact dropWhile_digits_eq_self fun c hc => (hrest.endsNumber c hc).1
      · rcases he with rfl | rfl
        · exact absurd rfl (hend 'e' rfl).2.2.1
        · exact absurd rfl (hend 'E' rfl).2.2.2
    · exact absurd rfl (hend '.' rfl).2.1

theorem exact_natural (expected : String) (greatest : Nat) : Exact (natural expected greatest) := by
  apply exact_of_opens
  · exact skipsBlanks_peekToken _
  · intro c t rest n rest' hopens hrest h
    rw [← List.nil_append (c :: _), natural_eq_ok_iff blank_nil hopens.not_isBlank] at h
    obtain ⟨hdigit, hread, -⟩ := h
    obtain ⟨-, rfl, hend⟩ := readNumber_eq_natural hread
    cases hopens with
    | null => exact absurd hdigit (by decide)
    | boolean hc => rcases hc with rfl | rfl <;> exact absurd hdigit (by decide)
    | minus => exact absurd hdigit (by decide)
    | quote => exact absurd hdigit (by decide)
    | frame hc => rcases hc with rfl | rfl <;> exact absurd hdigit (by decide)
    | digit hc hnumber => exact hnumber.dropWhile_eq hrest hend

/-- The text of a value that may be missing: `null`, or the text of one that is there. -/
def IsNullable (p : List Char → α → Prop) (v : List Char) : Option α → Prop
  | none => v = "null".toList
  | some a => p v a

theorem nullable_null (r : Reader α) {gap : List Char} (hgap : Blank gap) (rest : List Char) :
    nullable r (gap ++ ("null".toList ++ rest)) = .ok (none, rest) := by
  have hpeek : peekToken (gap ++ ("null".toList ++ rest)) = .ok (some 'n', "null".toList ++ rest) :=
    peekToken_eq hgap (by decide)
  rw [nullable, bind_of_ok hpeek, if_pos rfl, bind_of_ok (literal_append _ rest)]
  rfl

theorem nullable_cons {r : Reader α} {gap t : List Char} {c : Char} (hgap : Blank gap) (hc : ¬isBlank c)
    (hn : c ≠ 'n') :
    nullable r (gap ++ c :: t) = (r >>= fun a => pure (some a)) (c :: t) := by
  have hne : some c ≠ some 'n' := fun h => hn (Option.some_inj.1 h)
  rw [nullable, bind_of_ok (peekToken_eq hgap hc), if_neg hne]

/-- The value is there, by its first character. -/
def IsPresent (v : List Char) : Prop := ∃ c t, v = c :: t ∧ ¬isBlank c ∧ c ≠ 'n'

theorem IsString.isPresent {s : String} (h : IsString v s) : IsPresent v := by
  obtain ⟨body, rfl, -⟩ := h
  exact ⟨'"', _, rfl, by decide, by decide⟩

theorem IsInteger.isPresent {n : Nat} (h : IsInteger v n) : IsPresent v := by
  cases v with
  | nil => exact absurd rfl h.canonical.ne_nil
  | cons c t =>
    have hdigit := h.canonical.isDigit c List.mem_cons_self
    refine ⟨c, t, rfl, not_isBlank_of_isDigit hdigit, ?_⟩
    rintro rfl
    exact absurd hdigit (by decide)

theorem reads_nullable {r : Reader α} {p : List Char → α → Prop} {o : Option α} (h : IsNullable p v o)
    (hread : ∀ a, p v a → Reads r v a) (hpresent : ∀ a, p v a → IsPresent v) :
    Reads (nullable r) v o := by
  intro gap rest hgap hrest
  cases o with
  | none =>
    subst h
    exact nullable_null r hgap rest
  | some a =>
    obtain ⟨c, t, rfl, hc, hn⟩ := hpresent a h
    rw [List.cons_append, nullable_cons hgap hc hn]
    exact (hread a h).map some [] rest blank_nil hrest

theorem exact_nullable {r : Reader α} (h : Exact r) : Exact (nullable r) := by
  intro v gap rest o rest' hv hgap hrest ho
  obtain ⟨c, t, rfl, hopens⟩ := hv.opens
  by_cases hn : c = 'n'
  · subst hn
    cases hopens with
    | null =>
      rw [show 'n' :: "ull".toList = "null".toList from rfl, nullable_null r hgap] at ho
      cases ho
      rfl
    | boolean hc => rcases hc with hc | hc <;> exact absurd hc (by decide)
    | digit hc => exact absurd hc (by decide)
    | frame hc => rcases hc with hc | hc <;> exact absurd hc (by decide)
  · rw [List.cons_append, nullable_cons hgap hopens.not_isBlank hn] at ho
    exact h.map some _ [] rest o rest' hv blank_nil hrest ho

/-- The text of a point: a string that is one of its numerals. -/
def IsPoint (v : List Char) (x : RingId) : Prop :=
  ∃ s, IsString v s ∧ IsNumeral s.toList ∧ numeralValue s.toList = x.val

theorem IsPoint.isPresent {x : RingId} (h : IsPoint v x) : IsPresent v := by
  obtain ⟨s, hs, -⟩ := h
  exact hs.isPresent

theorem reads_ringId {x : RingId} (h : IsPoint v x) : Reads ringId v x := by
  obtain ⟨s, hs, hnumeral, hx⟩ := h
  intro gap rest hgap hrest
  rw [ringId, bind_of_ok (reads_string "a string" hs gap rest hgap hrest),
    RingId.ofDecimal_of_isNumeral hnumeral hx]
  rfl

theorem exact_ringId : Exact ringId := by
  apply (exact_string "a string").bind
  intro s cs x rest h
  cases hx : RingId.ofDecimal s with
  | ok y =>
    rw [hx] at h
    cases h
    rfl
  | error e =>
    rw [hx] at h
    cases h

end RingOverlay.Json
