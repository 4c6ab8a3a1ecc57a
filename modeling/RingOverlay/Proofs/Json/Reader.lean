import RingOverlay.Json.Value
import RingOverlay.Proofs.Json.Grammar

/-!
# `Json.Reader` — readers step by step

A reader is run on a text, and a step of it that is known is taken with `bind_of_ok`. What comes of a reader
whatever the text is, is said by `Yields`; a reader that never comes to an end yields nothing that is true.

## Contents
- **Steps.** `bind_of_ok`, `bind_of_error`, `bind_eq_ok`.
- **Results.** `Yields` and one law for each way to build a reader.
- **Blanks and tokens.** `peekToken_eq`, `token_eq`, `literal_append`.
-/

namespace RingOverlay.Json

variable {α β : Type} {cs rest : List Char}

/-! ## Steps -/

theorem bind_of_ok {r : Reader α} {f : α → Reader β} {a : α} (h : r cs = .ok (a, rest)) :
    (r >>= f) cs = f a rest := by
  show (r cs >>= fun p => f p.1 p.2) = _
  rw [h]
  rfl

theorem bind_of_error {r : Reader α} {f : α → Reader β} {e : ReadFault} (h : r cs = .error e) :
    (r >>= f) cs = .error e := by
  show (r cs >>= fun p => f p.1 p.2) = _
  rw [h]
  rfl

/-- A reading that came to an end came to one in each step. -/
theorem bind_eq_ok {r : Reader α} {f : α → Reader β} {b : β} (h : (r >>= f) cs = .ok (b, rest)) :
    ∃ a cs', r cs = .ok (a, cs') ∧ f a cs' = .ok (b, rest) := by
  cases hr : r cs with
  | error e =>
    rw [bind_of_error hr] at h
    cases h
  | ok p =>
    rw [bind_of_ok hr] at h
    exact ⟨p.1, p.2, rfl, h⟩

/-! ## Results -/

/-- Whatever the reader makes of a text satisfies `p`. -/
def Yields (r : Reader α) (p : α → Prop) : Prop := ∀ cs a rest, r cs = .ok (a, rest) → p a

theorem Yields.bind {r : Reader α} {f : α → Reader β} {p : β → Prop} (h : ∀ a, Yields (f a) p) :
    Yields (r >>= f) p := by
  intro cs b rest hb
  obtain ⟨a, cs', -, ha⟩ := bind_eq_ok hb
  exact h a cs' b rest ha

theorem yields_throw (e : ReadFault) (p : α → Prop) : Yields (throw e) p := by
  intro cs a rest h
  cases h

theorem yields_pure {p : α → Prop} {a : α} (h : p a) : Yields (pure a) p := by
  intro cs b rest hb
  cases hb
  exact h

theorem Yields.ite {c : Prop} [Decidable c] {r r' : Reader α} {p : α → Prop} (h : c → Yields r p)
    (h' : ¬c → Yields r' p) : Yields (if c then r else r') p := by
  by_cases hc : c
  · rw [if_pos hc]
    exact h hc
  · rw [if_neg hc]
    exact h' hc

/-- A step that is taken or left out, in front of the same rest. -/
theorem Yields.step {c : Prop} [Decidable c] {r : Reader PUnit} {f : PUnit → Reader α} {p : α → Prop}
    (h : ∀ u, Yields (f u) p) : Yields (if c then r >>= f else f ⟨⟩) p :=
  Yields.ite (fun _ => Yields.bind h) (fun _ => h _)

/-! ## Blanks and tokens -/

theorem blank_nil : Blank [] := nofun

theorem dropWhile_blank {gap : List Char} (h : Blank gap) (cs : List Char) :
    (gap ++ cs).dropWhile isBlank = cs.dropWhile isBlank :=
  List.dropWhile_append_of_pos h

/-- What ends a value may stand behind blanks. -/
theorem delimited_gap {gap : List Char} {c : Char} (hgap : Blank gap)
    (hc : c = ',' ∨ c = ']' ∨ c = '\x7d') : Delimited (gap ++ c :: rest) := by
  intro d hd
  cases gap with
  | nil =>
    cases hd
    exact .inr hc
  | cons b gap =>
    rw [List.cons_append, List.head?_cons, Option.some_inj] at hd
    rw [← hd]
    exact .inl (hgap b List.mem_cons_self)

/-- The next token stays in place, and blanks in front of it are taken off. -/
theorem peekToken_eq {gap : List Char} {c : Char} (h : Blank gap) (hc : ¬isBlank c) :
    peekToken (gap ++ c :: rest) = .ok (some c, c :: rest) := by
  show Except.ok (((gap ++ c :: rest).dropWhile isBlank).head?, (gap ++ c :: rest).dropWhile isBlank) = _
  rw [dropWhile_blank h, List.dropWhile_cons_of_neg hc]
  rfl

theorem token_eq {gap : List Char} {c : Char} (h : Blank gap) (hc : ¬isBlank c) :
    token c (gap ++ c :: rest) = .ok ((), rest) := by
  rw [token, bind_of_ok (peekToken_eq h hc)]
  simp only [if_true]
  rfl

theorem literal_append (cs rest : List Char) : literal cs (cs ++ rest) = .ok ((), rest) := by
  induction cs with
  | nil => rfl
  | cons c cs ih =>
    have hnext : next (c :: cs ++ rest) = .ok (some c, cs ++ rest) := rfl
    rw [literal, bind_of_ok hnext]
    simp only [if_true]
    exact ih

end RingOverlay.Json
