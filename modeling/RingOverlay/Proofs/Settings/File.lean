import RingOverlay.Proofs.Json.Node
import RingOverlay.Proofs.Settings.Accepted
import RingOverlay.Proofs.Settings.Amend
import RingOverlay.Proofs.Wire.Field
import RingOverlay.Settings.File

/-!
# `Settings.File` — a file of settings is read as a whole or not at all

A file names some of the fields, each once, in any order. What is loaded from it are the defaults with these
fields put in their places, if they pass the checks; else nothing. One member too many, of which the name is
unknown or there already, keeps the whole file from being read.

## Contents
- **Fields of the record.** `Key.IsText`, `gives_change`, `exact_fields`.
- **Files.** `IsFile`, `Written`; `load_of_isFile`, `load_of_spoiled`.
- **Loading.** `load_written`.
-/

namespace RingOverlay.Settings

open Json Text Wire

variable {given given' : List (Sigma Key.Value)}

/-! ## Fields of the record -/

/-- The texts of a value of a field. -/
def Key.IsText (v : List Char) : (k : Key) → k.Value → Prop
  | nodeId, x => IsNullable IsPoint v x
  | host, s | logLevel, s => IsString v s
  | port, n => IsNullable (fun v (n : UInt16) => IsInteger v n.toNat) v n
  | advertise, s | join, s | logConfig, s => IsNullable IsString v s
  | maxLookupHops, (n : UInt32) => IsInteger v n.toNat
  | stabilizeInterval, (n : UInt64) | checkInterval, (n : UInt64) | fingersInterval, (n : UInt64)
  | fingersPerTick, (n : UInt64) | rpcTimeout, (n : UInt64) | workers, (n : UInt64) => IsInteger v n.toNat

theorem reads_word {v : List Char} {n : UInt64} (expected : String) (h : IsInteger v n.toNat) :
    Reads (do return UInt64.ofNat (← natural expected 0xffffffffffffffff)) v n := by
  have hn : n.toNat ≤ 0xffffffffffffffff := Nat.le_of_lt_succ n.toNat_lt
  have hread := (reads_natural expected h hn (Nat.le_refl _)).map UInt64.ofNat
  rwa [UInt64.ofNat_toNat] at hread

theorem reads_long {v : List Char} {n : UInt64} (h : IsInteger v n.toNat) : Reads long v n :=
  reads_word "u64" h

theorem reads_size {v : List Char} {n : UInt64} (h : IsInteger v n.toNat) : Reads size v n :=
  reads_word "usize" h

theorem reads_hops {β : Type} {v : List Char} {n : UInt32} (h : IsInteger v n.toNat) (f : UInt32 → β) :
    Reads (natural "u32" 0xffffffff >>= fun x => pure (f (.ofNat x))) v (f n) := by
  have hn : n.toNat ≤ 0xffffffff := Nat.le_of_lt_succ n.toNat_lt
  have hread := (reads_natural "u32" h hn (by decide)).map fun x => f (.ofNat x)
  rwa [UInt32.ofNat_toNat] at hread

theorem reads_port {β : Type} {v : List Char} {o : Option UInt16}
    (h : IsNullable (fun v (n : UInt16) => IsInteger v n.toNat) v o) (f : Option UInt16 → β) :
    Reads (nullable (natural "u16" 0xffff) >>= fun x => pure (f (x.map .ofNat))) v (f o) := by
  have hnumber : IsNullable (fun v n => IsInteger v n ∧ n ≤ 0xffff) v (o.map UInt16.toNat) := by
    cases o with
    | none => exact h
    | some n => exact ⟨h, Nat.le_of_lt_succ n.toNat_lt⟩
  have hback : (o.map UInt16.toNat).map UInt16.ofNat = o := by
    cases o with
    | none => rfl
    | some n => exact congrArg some UInt16.ofNat_toNat
  have hread := (reads_nullable hnumber (fun _ hn => reads_natural "u16" hn.1 hn.2 (by decide))
    fun _ hn => hn.1.isPresent).map fun x => f (x.map .ofNat)
  rwa [hback] at hread

theorem reads_text {v : List Char} {s : Option String} (expected : String) (h : IsNullable IsString v s) :
    Reads (nullable (string expected)) v s :=
  reads_nullable h (fun _ => reads_string expected) fun _ => IsString.isPresent

/-- What a field that is given does to settings. -/
def change (g : Sigma Key.Value) : Change Settings := ⟨g.1.name, fun s => s.amend [g]⟩

/-- A member with the name of a field and a text of one of its values gives the field that value. -/
theorem gives_change {m : Json.Member} {g : Sigma Key.Value} (hname : Spells m.key g.1.name.toList)
    (htext : g.1.IsText m.value g.2) : Gives shape m (change g) := by
  obtain ⟨k, value⟩ := g
  cases k with
  | nodeId =>
    have hread := reads_nullable htext (fun _ => reads_ringId) fun _ => IsPoint.isPresent
    exact ⟨hname, _, rfl, fun s => hread.map fun x => { s with nodeId := x }⟩
  | host => exact ⟨hname, _, rfl, fun s => (reads_string _ htext).map fun x => { s with host := x }⟩
  | port => exact ⟨hname, _, rfl, fun s => reads_port htext fun x => { s with port := x }⟩
  | advertise => exact ⟨hname, _, rfl, fun s => (reads_text _ htext).map fun x => { s with advertise := x }⟩
  | join => exact ⟨hname, _, rfl, fun s => (reads_text _ htext).map fun x => { s with join := x }⟩
  | stabilizeInterval =>
    exact ⟨hname, _, rfl, fun s => (reads_long htext).map fun x => { s with stabilizeInterval := x }⟩
  | checkInterval =>
    exact ⟨hname, _, rfl, fun s => (reads_long htext).map fun x => { s with checkInterval := x }⟩
  | fingersInterval =>
    exact ⟨hname, _, rfl, fun s => (reads_long htext).map fun x => { s with fingersInterval := x }⟩
  | fingersPerTick =>
    exact ⟨hname, _, rfl, fun s => (reads_size htext).map fun x => { s with fingersPerTick := x }⟩
  | maxLookupHops =>
    exact ⟨hname, _, rfl, fun s => reads_hops htext fun x => { s with maxLookupHops := x }⟩
  | rpcTimeout => exact ⟨hname, _, rfl, fun s => (reads_long htext).map fun x => { s with rpcTimeout := x }⟩
  | workers => exact ⟨hname, _, rfl, fun s => (reads_size htext).map fun x => { s with workers := x }⟩
  | logLevel => exact ⟨hname, _, rfl, fun s => (reads_string _ htext).map fun x => { s with logLevel := x }⟩
  | logConfig => exact ⟨hname, _, rfl, fun s => (reads_text _ htext).map fun x => { s with logConfig := x }⟩

/-- The readers of fields take a value off and nothing more. -/
theorem exact_fields : ∀ field ∈ shape.fields, ∀ s, Exact (field.read s) := by
  have htext := fun expected => exact_nullable (exact_string expected)
  have hport := exact_nullable (exact_natural "u16" 0xffff)
  have hlong : Exact long := (exact_natural "u64" _).map _
  have hsize : Exact size := (exact_natural "usize" _).map _
  simp only [shape, List.forall_mem_cons]
  exact ⟨fun _ => (exact_nullable exact_ringId).map _, fun _ => (exact_string _).map _,
    fun _ => hport.map _, fun _ => (htext _).map _, fun _ => (htext _).map _, fun _ => hlong.map _,
    fun _ => hlong.map _, fun _ => hlong.map _, fun _ => hsize.map _, fun _ => (exact_natural _ _).map _,
    fun _ => hlong.map _, fun _ => hsize.map _, fun _ => (exact_string _).map _, fun _ => (htext _).map _,
    nofun⟩

theorem exists_key_of_mem : ∀ field ∈ shape.fields, ∃ k : Key, field.name = k.name := by
  simp only [shape, List.forall_mem_cons]
  exact ⟨⟨.nodeId, rfl⟩, ⟨.host, rfl⟩, ⟨.port, rfl⟩, ⟨.advertise, rfl⟩, ⟨.join, rfl⟩,
    ⟨.stabilizeInterval, rfl⟩, ⟨.checkInterval, rfl⟩, ⟨.fingersInterval, rfl⟩, ⟨.fingersPerTick, rfl⟩,
    ⟨.maxLookupHops, rfl⟩, ⟨.rpcTimeout, rfl⟩, ⟨.workers, rfl⟩, ⟨.logLevel, rfl⟩, ⟨.logConfig, rfl⟩, nofun⟩

theorem name_injective : Function.Injective Key.name := by
  intro j k h
  cases j <;> cases k <;> first | rfl | exact absurd h (by decide)

/-! ## Files -/

/-- The text of a file in which an object with these members stands. -/
def IsFile (ms : List Json.Member) (text : String) : Prop :=
  ∃ gap v gap', text.toList = gap ++ (v ++ gap') ∧ Blank gap ∧ Blank gap' ∧ IsObject ms v

/-- The members give these fields, one by one. -/
def Written (ms : List Json.Member) (given : List (Sigma Key.Value)) : Prop :=
  List.Forall₂ (fun m g => Spells m.key g.1.name.toList ∧ g.1.IsText m.value g.2) ms given

variable {ms : List Json.Member} {text : String}

theorem Written.gives (h : Written ms given) : List.Forall₂ (Gives shape) ms (given.map change) := by
  rw [List.forall₂_map_right_iff]
  exact List.Forall₂.imp (fun m g hg => gives_change hg.1 hg.2) h

theorem nodup_names (h : given.NodupKeys) : ((given.map change).map Change.name).Nodup := by
  have hnames : (given.map change).map Change.name = given.keys.map Key.name := by
    rw [List.map_map, List.keys, List.map_map]
    rfl
  rw [hnames]
  exact List.Nodup.map name_injective h

theorem foldl_change (hgiven : given.NodupKeys) (s : Settings) :
    (given.map change).foldl (fun s c => c.apply s) s = s.amend given := by
  induction given generalizing s with
  | nil => exact (amend_nil s).symm
  | cons g given ih =>
    rw [List.nodupKeys_cons] at hgiven
    rw [List.map_cons, List.foldl_cons, ih hgiven.2]
    exact amend_amend hgiven.1 g.2 s

theorem load_textBytes (text : String) : load (.ok (textBytes text)) = ofText text := by
  have hbytes : String.fromUTF8? ⟨(textBytes text).toArray⟩ = some text := textOfBytes?_textBytes text
  rw [load, hbytes]

theorem ofText_of_readAll {s : Settings} (h : readAll (record shape) text = .ok s) :
    ofText text = (s.validate.mapError LoadFault.refused).map fun _ => s := by
  rw [ofText, h]
  show (s.validate.mapError LoadFault.refused >>= fun _ => pure s) = _
  cases s.validate <;> rfl

/-- What is loaded are the defaults with the given fields in their places, if they pass the checks. -/
theorem load_of_isFile (hfile : IsFile ms text) (hgiven : given.NodupKeys) (hwritten : Written ms given) :
    load (.ok (textBytes text))
      = ((amend {} given).validate.mapError LoadFault.refused).map fun _ => amend {} given := by
  obtain ⟨gap, v, gap', htext, hgap, hgap', hobject⟩ := hfile
  have hreads : Reads (record shape) v (amend {} given) :=
    reads_record hobject hwritten.gives (nodup_names hgiven) (congrArg Except.ok (foldl_change hgiven {}))
  have hread := hreads.readAll hgap hgap'
  rw [← htext, String.ofList_toList] at hread
  rw [load_textBytes, ofText_of_readAll hread]

/-- What spoils the object of a file keeps the file from being read. -/
theorem load_of_spoiled {before after : List Json.Member} {extra : Json.Member}
    (hfile : IsFile (before ++ extra :: after) text) (hgiven : given.NodupKeys)
    (hwritten : Written (before ++ after) given)
    (hextra : Spoils shape ((given.map change).map Change.name) extra) :
    ∃ fault, load (.ok (textBytes text)) = .error (.unread fault) := by
  obtain ⟨gap, v, gap', htext, hgap, hgap', hobject⟩ := hfile
  have hbefore := List.forall₂_take before.length hwritten.gives
  have hafter := List.forall₂_drop before.length hwritten.gives
  rw [List.take_left] at hbefore
  rw [List.drop_left] at hafter
  have hall := List.take_append_drop before.length (given.map change)
  obtain ⟨e, he⟩ := record_spoiled hobject hbefore hafter (by rw [hall]; exact nodup_names hgiven)
    (by rwa [hall]) exact_fields hgap gap'
  rw [← htext] at he
  have hread : readAll (record shape) text = .error e := by
    rw [readAll, he]
    rfl
  refine ⟨e, ?_⟩
  rw [load_textBytes, ofText, hread]
  rfl

/-! ## Loading -/

/-- Fields that are given once each, in any order, replace the defaults; what comes of that is loaded if it
    passes the checks and refused if it does not, and the order makes no difference. A further member that
    names no field, or one that is given, keeps the file from being read, wherever it stands and whatever its
    value is. -/
theorem load_written (hgiven : given.NodupKeys) (hwritten : Written ms given) :
    (∀ text, IsFile ms text →
      ((amend {} given).Admissible → load (.ok (textBytes text)) = .ok (amend {} given)) ∧
      (¬(amend {} given).Admissible →
        ∃ reason, load (.ok (textBytes text)) = .error (.refused (.invalid reason)))) ∧
    (∀ given' ms' text text', given.Perm given' → Written ms' given' → IsFile ms text → IsFile ms' text' →
      load (.ok (textBytes text')) = load (.ok (textBytes text))) ∧
    ∀ before after extra text, ms = before ++ after → IsFile (before ++ extra :: after) text →
      ((∀ k : Key, ¬Spells extra.key k.name.toList) ∨ ∃ g ∈ given, Spells extra.key g.1.name.toList) →
      ∃ fault, load (.ok (textBytes text)) = .error (.unread fault) := by
  refine ⟨fun text hfile => ?_, fun given' ms' text text' hperm hwritten' hfile hfile' => ?_,
    fun before after extra text hms hfile hextra => ?_⟩
  · rw [load_of_isFile hfile hgiven hwritten]
    constructor
    · intro hadmissible
      rw [validate_eq_ok_iff.2 hadmissible]
      rfl
    · intro hrefused
      obtain ⟨reason, hreason⟩ := validate_eq_error hrefused
      rw [hreason]
      exact ⟨reason, rfl⟩
  · have hgiven' := (List.perm_nodupKeys hperm).1 hgiven
    rw [load_of_isFile hfile hgiven hwritten, load_of_isFile hfile' hgiven' hwritten',
      amend_perm hgiven hperm]
  · subst hms
    apply load_of_spoiled hfile hgiven hwritten
    rcases hextra with hunknown | ⟨g, hg, hrepeated⟩
    · refine .unknown rfl fun name hname => List.find?_eq_none.2 fun field hfield hnamed => ?_
      obtain ⟨k, hk⟩ := exists_key_of_mem field hfield
      rw [decide_eq_true_eq, hk] at hnamed
      rw [← hnamed] at hname
      exact hunknown k hname
    · exact .repeated hrepeated (List.mem_map_of_mem (List.mem_map_of_mem hg))

/-- Two fields, one of them with an escape in its name, are loaded; with a second number of workers between them
    nothing is. -/
theorem load_written_workers_nodeId :
    load (.ok (textBytes "\x7b\"workers\":8 ,\"n\\u006fde_id\":\"007\"\x7d"))
      = .ok { nodeId := some (.ofNat 7), workers := 8 } ∧
    ∃ fault, load (.ok (textBytes "\x7b\"workers\":8,\"workers\":null ,\"n\\u006fde_id\":\"007\"\x7d"))
      = .error (.unread fault) := by
  have hworkers : Spells "workers".toList "workers".toList := spells_of_plain (by decide)
  have hrest : Spells "de_id".toList "de_id".toList := spells_of_plain (by decide)
  have hunit : IsUnit ['0', '0', '6', 'f'] (((0 * 16 + 0) * 16 + 6) * 16 + 15) := .intro rfl rfl rfl rfl
  have hnodeId : Spells ('n' :: '\\' :: 'u' :: (['0', '0', '6', 'f'] ++ "de_id".toList)) "node_id".toList :=
    Spells.plain (c := 'n') (by decide) (.unit hunit (by decide) hrest)
  have hseven : Spells "007".toList "007".toList := spells_of_plain (by decide)
  have hpoint : IsPoint (between "007".toList) (.ofNat 7) :=
    ⟨"007", ⟨_, rfl, hseven⟩, ⟨by decide, List.all_eq_true.1 (by decide)⟩, by decide⟩
  have height : IsInteger ['8'] 8 := ⟨⟨⟨by decide, List.all_eq_true.1 (by decide)⟩, by decide⟩, rfl⟩
  have hgiven : List.NodupKeys ([⟨.workers, (8 : UInt64)⟩, ⟨.nodeId, some (RingId.ofNat 7)⟩]
      : List (Sigma Key.Value)) :=
    show [Key.workers, Key.nodeId].Nodup by decide
  have hwritten : Written [⟨"workers".toList, ['8']⟩, ⟨_, between "007".toList⟩]
      [⟨.workers, (8 : UInt64)⟩, ⟨.nodeId, some (RingId.ofNat 7)⟩] :=
    .cons ⟨hworkers, height⟩ (.cons ⟨hnodeId, hpoint⟩ .nil)
  obtain ⟨hloaded, -, hspoiled⟩ := load_written hgiven hwritten
  have hnumber : IsValue ['8'] := .positive (.intro height.canonical (.inl rfl) (.inl rfl))
  have hnull : IsValue "null".toList := .literal (by decide)
  have hblank : Blank [' '] := by simp [Blank, isBlank]
  have hfirst := IsMember.intro hworkers.isBody hnumber blank_nil blank_nil blank_nil
  have hextra := IsMember.intro hworkers.isBody hnull blank_nil blank_nil blank_nil
  have hlast := IsMember.intro hnodeId.isBody (IsValue.string hseven.isBody) blank_nil blank_nil blank_nil
  have hrow := Members.next hblank hlast .nil
  constructor
  · have hobject := IsObject.intro (.first hfirst hrow) blank_nil
    apply (hloaded _ ⟨[], _, [], rfl, blank_nil, blank_nil, hobject⟩).1
    exact validate_eq_ok_iff.1 rfl
  · have hobject := IsObject.intro (.first hfirst (.next blank_nil hextra hrow)) blank_nil
    exact hspoiled [_] [_] _ _ rfl ⟨[], _, [], rfl, blank_nil, blank_nil, hobject⟩
      (.inr ⟨_, List.mem_cons_self, hworkers⟩)

end RingOverlay.Settings
