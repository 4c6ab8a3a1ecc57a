import Mathlib.Data.List.Forall2
import RingOverlay.Proofs.Json.Value

/-!
# `Json.Record` — objects are read member by member

An object with distinct names, each of a field with a value of its type, is read as the draft with these fields
put in, in whatever order they are written. A further member with an unknown name or with one of the names that
are there spoils it, wherever it stands: readers of fields are exact, so that reading comes to the second of two
members with one name, if it comes that far.

## Contents
- **Members.** `Members.length_le`, `Members.delimited`, `memberAhead_member`, `memberAhead_close`.
- **One member.** `readMembers_unknown`, `readMembers_repeated`, `readMembers_known`.
- **Members in a row.** `Change` and `Gives`, `readMembers_row`.
- **Spoiled rows.** `Spoils`; `readMembers_exact` for a value of any type, `readMembers_spoiled`.
- **Records.** `reads_record`, `record_spoiled`.
-/

namespace RingOverlay.Json

variable {σ α : Type} {shape : Shape σ α} {p : List Char → Prop} {first : Bool} {m : Member}
  {ms : List Member} {cs tail : List Char}

/-! ## Members -/

theorem Members.length_le (h : Members p first ms cs) : ms.length ≤ cs.length := by
  induction h with
  | nil => exact Nat.le_refl 0
  | first hm _ ih =>
    cases hm
    simp only [between, List.length_append, List.length_cons]
    omega
  | next _ _ _ ih =>
    simp only [List.length_append, List.length_cons]
    omega

theorem Members.eq_nil (h : Members p first [] cs) : cs = [] := by
  cases h
  rfl

/-- What stands behind a value in an object. -/
theorem Members.delimited (h : Members p false ms cs) (htail : Delimited tail) : Delimited (cs ++ tail) := by
  cases h with
  | nil => exact htail
  | @next m ms gap cs rest hgap hm hrest =>
    rw [List.append_assoc, List.cons_append]
    exact delimited_gap hgap (.inl rfl)

theorem memberAhead_quote {gap t : List Char} (hgap : Blank gap) :
    memberAhead true (gap ++ '"' :: t) = .ok (true, '"' :: t) := by
  rw [memberAhead, bind_of_ok (peekToken_eq hgap (by decide))]
  rfl

theorem memberAhead_comma {gap gap' t : List Char} (hgap : Blank gap) (hgap' : Blank gap') :
    memberAhead false (gap ++ ',' :: (gap' ++ '"' :: t)) = .ok (true, '"' :: t) := by
  have hskip : skip (',' :: (gap' ++ '"' :: t)) = .ok ((), gap' ++ '"' :: t) := rfl
  rw [memberAhead, bind_of_ok (peekToken_eq hgap (by decide))]
  show (skip >>= fun _ => peekToken >>= _) _ = _
  rw [bind_of_ok hskip, bind_of_ok (peekToken_eq hgap' (by decide))]
  rfl

/-- What is in front of a member is taken off, up to its name. -/
theorem memberAhead_member (h : Members p first (m :: ms) cs) (tail : List Char) :
    ∃ gap gap' rest, Blank gap ∧ Blank gap' ∧ IsBody m.key ∧ p m.value ∧ Members p false ms rest ∧
      memberAhead first (cs ++ tail)
        = .ok (true, between m.key ++ (gap ++ ':' :: (gap' ++ (m.value ++ (rest ++ tail))))) := by
  cases h with
  | @first _ _ cs rest hm hrest =>
    obtain ⟨hkey, hvalue, hgap, hgap', hgap''⟩ := hm
    refine ⟨_, _, rest, hgap', hgap'', hkey, hvalue, hrest, ?_⟩
    simp only [between, List.append_assoc, List.cons_append]
    exact memberAhead_quote hgap
  | @next _ _ gap₀ cs rest hgap₀ hm hrest =>
    obtain ⟨hkey, hvalue, hgap, hgap', hgap''⟩ := hm
    refine ⟨_, _, rest, hgap', hgap'', hkey, hvalue, hrest, ?_⟩
    simp only [between, List.append_assoc, List.cons_append]
    exact memberAhead_comma hgap₀ hgap

theorem memberAhead_close {gap rest : List Char} (hgap : Blank gap) :
    memberAhead first (gap ++ '\x7d' :: rest) = .ok (false, '\x7d' :: rest) := by
  rw [memberAhead, bind_of_ok (peekToken_eq hgap (by decide))]
  rfl

/-! ## One member -/

variable {given : List String} {draft : σ} {fuel : Nat} {name : String} {field : Field σ}

/-- The name of a member is not one of the fields, so that reading ends. -/
theorem readMembers_unknown (h : Members IsValue given.isEmpty (m :: ms) cs) (tail : List Char)
    (hstrict : shape.lenient = false)
    (hunknown : ∀ name : String, Spells m.key name.toList →
      shape.fields.find? (fun f => f.name = name) = none) :
    ∃ e, readMembers shape (fuel + 1) given draft (cs ++ tail) = .error e := by
  obtain ⟨gap, gap', rest, -, -, hkey, -, -, hahead⟩ := memberAhead_member h tail
  rw [readMembers, bind_of_ok hahead]
  simp only [Bool.not_true, Bool.false_eq_true, if_false]
  cases hname : stringBody (between m.key ++ (gap ++ ':' :: (gap' ++ (m.value ++ (rest ++ tail))))) with
  | error e => exact ⟨e, bind_of_error hname⟩
  | ok q =>
    obtain ⟨name, cs'⟩ := q
    have hnone := hunknown name (stringBody_eq_ok hkey hname).1
    rw [bind_of_ok hname, hnone]
    simp only [hstrict, Bool.not_false, if_true]
    exact ⟨_, rfl⟩

/-- The name of a member is one of the fields that are given, so that reading ends. -/
theorem readMembers_repeated (h : Members IsValue given.isEmpty (m :: ms) cs) (tail : List Char)
    (hname : Spells m.key name.toList) (hfield : shape.fields.find? (fun f => f.name = name) = some field)
    (hgiven : name ∈ given) :
    readMembers shape (fuel + 1) given draft (cs ++ tail) = .error (duplicateField name) := by
  obtain ⟨gap, gap', rest, -, -, -, -, -, hahead⟩ := memberAhead_member h tail
  rw [readMembers, bind_of_ok hahead]
  simp only [Bool.not_true, Bool.false_eq_true, if_false]
  rw [bind_of_ok (stringBody_between hname), hfield]
  simp only [if_pos hgiven]
  rfl

/-- The value of a member with a fresh name is left to the reader of its field. -/
theorem readMembers_known (h : Members IsValue given.isEmpty (m :: ms) cs) (tail : List Char)
    (hname : Spells m.key name.toList) (hfield : shape.fields.find? (fun f => f.name = name) = some field)
    (hfresh : name ∉ given) :
    ∃ gap rest, Blank gap ∧ IsValue m.value ∧ Members IsValue false ms rest ∧ ∀ fuel draft,
      readMembers shape (fuel + 1) given draft (cs ++ tail)
        = (field.read draft >>= readMembers shape fuel (name :: given))
            (gap ++ (m.value ++ (rest ++ tail))) := by
  obtain ⟨gap, gap', rest, hgap, hgap', -, hvalue, hrest, hahead⟩ := memberAhead_member h tail
  refine ⟨gap', rest, hgap', hvalue, hrest, fun fuel draft => ?_⟩
  rw [readMembers, bind_of_ok hahead]
  simp only [Bool.not_true, Bool.false_eq_true, if_false]
  rw [bind_of_ok (stringBody_between hname), hfield]
  simp only [if_neg hfresh]
  rw [bind_of_ok (token_eq hgap (by decide))]

/-! ## Members in a row -/

/-- What a member does to a draft, and the name that it goes by. -/
structure Change (σ : Type) where
  name : String
  apply : σ → σ

/-- The member spells the name of a field and has a value of its type, which changes the draft so. -/
structure Gives (shape : Shape σ α) (m : Member) (change : Change σ) : Prop where
  spells : Spells m.key change.name.toList
  reads : ∃ field, shape.fields.find? (fun f => f.name = change.name) = some field ∧
    ∀ draft, Reads (field.read draft) m.value (change.apply draft)

variable {change : Change σ} {changes : List (Change σ)}

theorem readMembers_of_gives (h : Members IsValue given.isEmpty (m :: ms) cs) (htail : Delimited tail)
    (hgives : Gives shape m change) (hfresh : change.name ∉ given) :
    ∃ rest, Members IsValue false ms rest ∧ ∀ fuel draft,
      readMembers shape (fuel + 1) given draft (cs ++ tail)
        = readMembers shape fuel (change.name :: given) (change.apply draft) (rest ++ tail) := by
  obtain ⟨field, hfield, hreads⟩ := hgives.reads
  obtain ⟨gap, rest, hgap, -, hrest, hread⟩ := readMembers_known h tail hgives.spells hfield hfresh
  refine ⟨rest, hrest, fun fuel draft => ?_⟩
  rw [hread, bind_of_ok (hreads draft gap _ hgap (hrest.delimited htail))]

/-- Members with distinct names are taken off one after another, each with its change. -/
theorem readMembers_row {before after : List Member}
    (h : Members IsValue given.isEmpty (before ++ after) cs) (htail : Delimited tail)
    (hgives : List.Forall₂ (Gives shape) before changes) (hnodup : (changes.map Change.name).Nodup)
    (hfresh : ∀ c ∈ changes, c.name ∉ given) :
    ∃ rest, Members IsValue ((changes.map Change.name).reverse ++ given).isEmpty after rest ∧ ∀ fuel draft,
      readMembers shape (changes.length + fuel) given draft (cs ++ tail)
        = readMembers shape fuel ((changes.map Change.name).reverse ++ given)
            (changes.foldl (fun d c => c.apply d) draft) (rest ++ tail) := by
  induction hgives generalizing cs given with
  | nil =>
    refine ⟨cs, h, fun fuel draft => ?_⟩
    rw [List.length_nil, Nat.zero_add]
    rfl
  | @cons m change before changes hm _ ih =>
    rw [List.map_cons, List.nodup_cons] at hnodup
    rw [List.forall_mem_cons] at hfresh
    obtain ⟨rest, hrest, hread⟩ := readMembers_of_gives h htail hm hfresh.1
    have hfresh' : ∀ c ∈ changes, c.name ∉ change.name :: given := by
      intro c hc
      rw [List.mem_cons, not_or]
      refine ⟨fun hname => hnodup.1 ?_, hfresh.2 c hc⟩
      rw [← hname]
      exact List.mem_map_of_mem hc
    have hrest' : Members IsValue (change.name :: given).isEmpty (before ++ after) rest := hrest
    obtain ⟨rest', hafter, hrow⟩ := ih hrest' hnodup.2 hfresh'
    refine ⟨rest', ?_, fun fuel draft => ?_⟩
    · rwa [List.map_cons, List.reverse_cons, List.append_assoc, List.singleton_append]
    · rw [List.length_cons, Nat.add_right_comm, hread, hrow, List.map_cons, List.reverse_cons,
        List.append_assoc, List.singleton_append, List.foldl_cons]

/-- The row comes apart in front of the member that makes a change. -/
theorem exists_of_mem_changes (h : List.Forall₂ (Gives shape) ms changes) (hc : change ∈ changes) :
    ∃ before m after made later, ms = before ++ m :: after ∧ changes = made ++ change :: later ∧
      List.Forall₂ (Gives shape) before made ∧ Gives shape m change := by
  obtain ⟨made, later, rfl⟩ := List.append_of_mem hc
  obtain ⟨m, after, hm, -, hdrop⟩ := List.forall₂_cons_right_iff.1 (List.forall₂_drop_append _ _ _ h)
  refine ⟨ms.take made.length, m, after, made, later, ?_, rfl, List.forall₂_take_append _ _ _ h, hm⟩
  rw [← hdrop, List.take_append_drop]

theorem readMembers_close {gap rest : List Char} (hgap : Blank gap) :
    readMembers shape (fuel + 1) given draft (gap ++ '\x7d' :: rest) = .ok (draft, '\x7d' :: rest) := by
  rw [readMembers, bind_of_ok (memberAhead_close hgap)]
  rfl

/-! ## Spoiled rows -/

/-- A value of any type is taken off by an exact reader, or reading ends. -/
theorem readMembers_exact (h : Members IsValue given.isEmpty (m :: ms) cs) (htail : Delimited tail)
    (hname : Spells m.key name.toList) (hfield : shape.fields.find? (fun f => f.name = name) = some field)
    (hfresh : name ∉ given) (hexact : Exact (field.read draft)) :
    (∃ e, readMembers shape (fuel + 1) given draft (cs ++ tail) = .error e) ∨
      ∃ draft' rest, Members IsValue false ms rest ∧
        readMembers shape (fuel + 1) given draft (cs ++ tail)
          = readMembers shape fuel (name :: given) draft' (rest ++ tail) := by
  obtain ⟨gap, rest, hgap, hvalue, hrest, hread⟩ := readMembers_known h tail hname hfield hfresh
  rw [hread]
  cases hvalue' : field.read draft (gap ++ (m.value ++ (rest ++ tail))) with
  | error e => exact .inl ⟨e, bind_of_error hvalue'⟩
  | ok q =>
    obtain ⟨draft', cs'⟩ := q
    have hcs' := hexact _ _ _ _ _ hvalue hgap (hrest.delimited htail) hvalue'
    refine .inr ⟨draft', rest, hrest, ?_⟩
    rw [bind_of_ok hvalue', hcs']

/-- A second member with a name that is given ends the reading, where it is come to. -/
theorem readMembers_row_repeated {before after : List Member} {extra : Member}
    (h : Members IsValue given.isEmpty (before ++ extra :: after) cs) (htail : Delimited tail)
    (hgives : List.Forall₂ (Gives shape) before changes) (hnodup : (changes.map Change.name).Nodup)
    (hfresh : ∀ c ∈ changes, c.name ∉ given) (hname : Spells extra.key name.toList)
    (hfield : shape.fields.find? (fun f => f.name = name) = some field)
    (hgiven : name ∈ (changes.map Change.name).reverse ++ given) (fuel : Nat) :
    readMembers shape (changes.length + (fuel + 1)) given draft (cs ++ tail)
      = .error (duplicateField name) := by
  obtain ⟨rest, hafter, hrow⟩ := readMembers_row h htail hgives hnodup hfresh
  rw [hrow]
  exact readMembers_repeated hafter tail hname hfield hgiven

/-- What spoils an object in which fields are given: a name that is no field, or one that is given. -/
inductive Spoils (shape : Shape σ α) (given : List String) (m : Member) : Prop
  | unknown (hstrict : shape.lenient = false)
      (h : ∀ name : String, Spells m.key name.toList →
        shape.fields.find? (fun f => f.name = name) = none)
  | repeated {name : String} (h : Spells m.key name.toList) (hgiven : name ∈ given)

/-- A member with a known name is followed by another one with that name, so that reading does not get past
    the second one. -/
theorem readMembers_row_repeated_ahead {after : List Member} {made : List (Change σ)}
    (h : Members IsValue given.isEmpty (m :: after) cs) (htail : Delimited tail)
    (hafter : List.Forall₂ (Gives shape) after made) (hnodup : (made.map Change.name).Nodup)
    (hfresh : ∀ c ∈ made, c.name ∉ given) (hchange : change ∈ made)
    (hname : Spells m.key change.name.toList)
    (hexact : ∀ field ∈ shape.fields, ∀ draft, Exact (field.read draft)) (fuel : Nat) :
    ∃ e, readMembers shape (made.length + (fuel + 1)) given draft (cs ++ tail) = .error e := by
  obtain ⟨before, m', after', made', later, rfl, rfl, hbefore, hgives⟩ := exists_of_mem_changes hafter hchange
  obtain ⟨field, hfield, -⟩ := hgives.reads
  have hexact' := hexact field (List.mem_of_find?_eq_some hfield) draft
  have hbound : (made' ++ change :: later).length + (fuel + 1)
      = (made'.length + (later.length + fuel + 1)) + 1 := by
    rw [List.length_append, List.length_cons]
    omega
  rw [hbound]
  rcases readMembers_exact h htail hname hfield (hfresh change hchange) hexact' with
    he | ⟨draft', rest, hrest, hread⟩
  · exact he
  have hrest' : Members IsValue (change.name :: given).isEmpty (before ++ m' :: after') rest := hrest
  rw [List.map_append, List.map_cons, List.nodup_append, List.nodup_cons] at hnodup
  rw [List.forall_mem_append] at hfresh
  have hfresh' : ∀ c ∈ made', c.name ∉ change.name :: given := by
    intro c hc
    rw [List.mem_cons, not_or]
    exact ⟨hnodup.2.2 _ (List.mem_map_of_mem hc) _ List.mem_cons_self, hfresh.1 c hc⟩
  have hgiven : change.name ∈ (made'.map Change.name).reverse ++ change.name :: given :=
    List.mem_append_right _ List.mem_cons_self
  rw [hread]
  exact ⟨_, readMembers_row_repeated hrest' htail hbefore hnodup.1 hfresh' hgives.spells hfield hgiven _⟩

/-- A further member that spoils an object spoils it at any place in it, whatever its value is. -/
theorem readMembers_spoiled {before after : List Member} {extra : Member} {changes' : List (Change σ)}
    (h : Members IsValue true (before ++ extra :: after) cs) (htail : Delimited tail)
    (hbefore : List.Forall₂ (Gives shape) before changes)
    (hafter : List.Forall₂ (Gives shape) after changes')
    (hnodup : ((changes ++ changes').map Change.name).Nodup)
    (hextra : Spoils shape ((changes ++ changes').map Change.name) extra)
    (hexact : ∀ field ∈ shape.fields, ∀ draft, Exact (field.read draft)) (fuel : Nat) :
    ∃ e, readMembers shape (changes.length + (changes'.length + (fuel + 1))) [] draft (cs ++ tail)
      = .error e := by
  have h' : Members IsValue ([] : List String).isEmpty (before ++ extra :: after) cs := h
  rw [List.map_append] at hextra
  rw [List.map_append, List.nodup_append] at hnodup
  obtain ⟨rest, hrest, hrow⟩ := readMembers_row h' htail hbefore hnodup.1 fun _ _ => List.not_mem_nil
  rw [hrow, ← Nat.add_assoc]
  cases hextra with
  | unknown hstrict hunknown => exact readMembers_unknown hrest tail hstrict hunknown
  | @repeated name hname hgiven =>
    -- the member that it repeats is in front of it or behind it
    rcases List.mem_append.1 hgiven with hgiven | hgiven
    · obtain ⟨change, hchange, rfl⟩ := List.mem_map.1 hgiven
      obtain ⟨-, m', -, -, -, -, -, -, hgives⟩ := exists_of_mem_changes hbefore hchange
      obtain ⟨field, hfield, -⟩ := hgives.reads
      have hmem : change.name ∈ (changes.map Change.name).reverse ++ [] := by
        rwa [List.append_nil, List.mem_reverse]
      exact ⟨_, readMembers_repeated hrest tail hname hfield hmem⟩
    · obtain ⟨change, hchange, rfl⟩ := List.mem_map.1 hgiven
      refine readMembers_row_repeated_ahead hrest htail hafter hnodup.2.1 ?_ hchange hname hexact fuel
      intro c hc hmem
      rw [List.append_nil, List.mem_reverse] at hmem
      exact hnodup.2.2 _ hmem _ (List.mem_map_of_mem hc) rfl

/-! ## Records -/

/-- An object is read by its members, the number of which is at most that of its characters. -/
theorem record_object {gap t : List Char} (hgap : Blank gap) :
    record shape (gap ++ '\x7b' :: t) = (do
      let draft ← readMembers shape (t.length + 1) [] shape.start
      let a ← shape.complete draft
      token '\x7d'
      return a : Reader α) t := by
  have hskip : skip ('\x7b' :: t) = .ok ((), t) := rfl
  have hget : (get : Reader (List Char)) t = .ok (t, t) := rfl
  rw [record, bind_of_ok (peekToken_eq hgap (by decide))]
  show (skip >>= fun _ => get >>= _) _ = _
  rw [bind_of_ok hskip, bind_of_ok hget]

/-- The bound on the number of members is never reached. -/
theorem Members.exists_bound (h : Members p first ms cs) (gap rest : List Char) :
    ∃ k, (cs ++ (gap ++ '\x7d' :: rest)).length + 1 = ms.length + (k + 1) := by
  refine ⟨(cs ++ (gap ++ '\x7d' :: rest)).length - ms.length, ?_⟩
  have hle := h.length_le
  rw [List.length_append]
  omega

variable {v : List Char}

/-- An object whose members have distinct names and give fields is read, in whatever order they are. -/
theorem reads_record {a : α} (hobject : IsObject ms v) (hgives : List.Forall₂ (Gives shape) ms changes)
    (hnodup : (changes.map Change.name).Nodup)
    (hcomplete : shape.complete (changes.foldl (fun d c => c.apply d) shape.start) = .ok a) :
    Reads (record shape) v a := by
  intro gap rest hgap _
  cases hobject with
  | @intro cs gap' hmembers hgap' =>
    have htail : Delimited (gap' ++ '\x7d' :: rest) := delimited_gap hgap' (.inr (.inr rfl))
    have hall : Members IsValue ([] : List String).isEmpty (ms ++ []) cs := by rwa [List.append_nil]
    obtain ⟨k, hk⟩ := hmembers.exists_bound gap' rest
    obtain ⟨cs', hnone, hrow⟩ := readMembers_row hall htail hgives hnodup nofun
    rw [hnone.eq_nil] at hrow
    simp only [List.cons_append, List.append_assoc, List.nil_append]
    have hlift : (liftM (Except.ok a : Except ReadFault α) : Reader α) ('\x7d' :: rest)
        = .ok (a, '\x7d' :: rest) := rfl
    rw [record_object hgap, hk, hgives.length_eq,
      bind_of_ok ((hrow (k + 1) shape.start).trans (readMembers_close hgap')), hcomplete, bind_of_ok hlift]
    rw [← List.nil_append ('\x7d' :: rest), bind_of_ok (token_eq blank_nil (by decide))]
    rfl

/-- A further member that spoils an object keeps it from being read, wherever it stands. -/
theorem record_spoiled {before after : List Member} {extra : Member} {changes' : List (Change σ)}
    (hobject : IsObject (before ++ extra :: after) v) (hbefore : List.Forall₂ (Gives shape) before changes)
    (hafter : List.Forall₂ (Gives shape) after changes')
    (hnodup : ((changes ++ changes').map Change.name).Nodup)
    (hextra : Spoils shape ((changes ++ changes').map Change.name) extra)
    (hexact : ∀ field ∈ shape.fields, ∀ draft, Exact (field.read draft)) {gap : List Char} (hgap : Blank gap)
    (rest : List Char) : ∃ e, record shape (gap ++ (v ++ rest)) = .error e := by
  cases hobject with
  | @intro cs gap' hmembers hgap' =>
    have htail : Delimited (gap' ++ '\x7d' :: rest) := delimited_gap hgap' (.inr (.inr rfl))
    obtain ⟨k, hk⟩ := hmembers.exists_bound gap' rest
    have hbound : (before ++ extra :: after).length + (k + 1)
        = changes.length + (changes'.length + (k + 1 + 1)) := by
      rw [List.length_append, List.length_cons, hbefore.length_eq, hafter.length_eq]
      omega
    obtain ⟨e, he⟩ := readMembers_spoiled hmembers htail hbefore hafter hnodup hextra hexact (k + 1)
    refine ⟨e, ?_⟩
    simp only [List.cons_append, List.append_assoc, List.nil_append]
    rw [record_object hgap, hk, hbound, bind_of_error he]

end RingOverlay.Json
