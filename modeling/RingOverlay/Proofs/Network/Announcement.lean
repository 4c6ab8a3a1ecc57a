import RingOverlay.Proofs.Network.Depth
import RingOverlay.Proofs.Network.Events
import RingOverlay.Proofs.Network.Parts

/-!
# `Network.Announcement` — a member announces once that it is part of the ring

A member that has announced itself remembers that, and announces nothing more until it forgets it. It
forgets it where it starts a ring of its own, and where a round of keeping the ring finds that it has lost
its successor. How it gets a successor back does not matter, nor what it is asked meanwhile.

A life of a member is made of turns. It leaves marks: the turns that were begun, each with the peer that
slot 0 named then, and the events that were announced. While one turn waits for an answer others may begin
and end; so the marks of a turn are its own and those of what happened during its requests, which the
transport accounts for, and no others.

For the proof a turn is taken apart into what it does when it begins, what it does in between, and whether
it may announce at its end. What is shown of lives holds of such pieces in any order, so that turns may also
overlap in other ways than one inside the other.

## Contents
- **Turns.** `Turn`, with `Turn.act` and `Turn.opened`; `Mark`.
- **Middles.** `Aside` and `Amid`, what happens between the beginning and the end of a turn; `turn_middle`.
- **Lives.** `Turn.Taken`, one turn with its marks, and `Life`; what a turn does when it begins.
- **Announcements.** `RenewedBetween` and `Announces`; `Noted`, which every piece keeps, and `Pieces`.
- **Runs.** `Life.pieces`; `taken_of_asides`, a turn during which nothing else happens; `announced_once`.
-/

namespace RingOverlay

/-- Whether a member announces that it is part of the ring. -/
def RingEvent.isJoined : RingEvent → Bool
  | .joined .. => true
  | _ => false

namespace Network

variable {net net' net₀ : Network} {t : Transport} {k : Nat}

/-! ## Turns -/

/-- What a member does on its own account, or because it is asked. -/
inductive Turn where
  | bootstrap
  | enter (through : String)
  | stabilize
  | check
  | refresh
  | answer (m : Method) (request : m.Request)

namespace Turn

/-- What the network comes to when the member at position `k` does it. -/
def act (t : Transport) (k : Nat) (net : Network) : Turn → Network
  | bootstrap => net.bootstrap k
  | enter through => (Network.enter t k through net).2
  | stabilize => stabilizeRound t k net
  | check => checkRound t k net
  | refresh => fingerRound t k net
  | answer m request => (Network.answer t k m request net).2

/-- What the network comes to before the member sends its first request. -/
def opened (k : Nat) (net : Network) : Turn → Network
  | bootstrap => net.bootstrap k
  | stabilize => if (net.peerSuccessor? k).isSome then net else net.setAnnounced k false
  | _ => net

end Turn

/-- What a life of a member is remembered by. -/
inductive Mark where
  /-- The member began a turn while slot 0 named this peer, or none. -/
  | began (turn : Turn) (peer : Option Node)
  /-- It announced an event while it had this table. -/
  | announced (event : RingEvent) (table : Table)

/-- The event that was announced. -/
def Mark.event? : Mark → Option RingEvent
  | announced event _ => some event
  | began .. => none

/-- The membership begins anew: the member starts a ring of its own, or a round of keeping the ring while
    slot 0 names no peer. -/
def Mark.Renews : Mark → Prop
  | began .bootstrap _ => True
  | began .stabilize none => True
  | _ => False

/-! ## Middles -/

/-- Something happens that has nothing to do with announcements of the member at `k`. What the member knows
    may change in any way. -/
structure Aside (k : Nat) (net net' : Network) : Prop where
  self : net'.self k = net.self k
  announced : (net'.member k).announced = (net.member k).announced
  told : net'.told RingEvent.isJoined k = net.told RingEvent.isJoined k

/-- The marks that requests over a transport leave at a member, by what they are sent for and the network that
    they are sent in, the latest first. -/
abbrev Meanwhile := (m : Method) → String → m.Request → Network → List Mark

/-- What happens while the member is in the middle of a turn: requests over `t`, with the marks that each of
    them leaves where it is sent, and asides. -/
inductive Amid (k : Nat) (t : Transport) (meanwhile : Meanwhile) :
    List Mark → Network → Network → Prop where
  | refl (net : Network) : Amid k t meanwhile [] net net
  | aside {marks : List Mark} {net net' net'' : Network} : Amid k t meanwhile marks net net' →
      Aside k net' net'' → Amid k t meanwhile marks net net''
  | call {marks : List Mark} {net net' : Network} (m : Method) (endpoint : String)
      (request : m.Request) : Amid k t meanwhile marks net net' →
      Amid k t meanwhile (meanwhile m endpoint request net' ++ marks) net
        (t m endpoint request net').2

theorem Aside.refl (k : Nat) (net : Network) : Aside k net net := ⟨rfl, rfl, rfl⟩

theorem Aside.trans {net'' : Network} (h : Aside k net net') (h' : Aside k net' net'') :
    Aside k net net'' :=
  ⟨h'.self.trans h.self, h'.announced.trans h.announced, h'.told.trans h.told⟩

theorem aside_note (k : Nat) (net : Network) (n : Note) : Aside k net (net.note n) := ⟨rfl, rfl, rfl⟩

/-- A change of a member that spares who it is, whether it has announced itself and what of that it told. -/
theorem aside_update (net : Network) (k j : Nat) {f : Member → Member}
    (hs : ∀ m, (f m).self = m.self) (ha : ∀ m, (f m).announced = m.announced)
    (ht : ∀ m, (f m).events.filter RingEvent.isJoined = m.events.filter RingEvent.isJoined) :
    Aside k net (net.update j f) where
  self := net.member_update_of_spared Member.self j hs k
  announced := net.member_update_of_spared Member.announced j ha k
  told := congrFun (net.told_update_of_spared j ht) k

/-- No part of a step has to do with announcements, whoever makes it. -/
theorem parts_aside (k j : Nat) : Parts (Aside k) j where
  refl := Aside.refl k
  trans := Aside.trans
  note net n _ := aside_note k net n
  table net _ := net.aside_update k j (fun _ => rfl) (fun _ => rfl) fun _ => rfl
  publish net e he := by
    have hnot : ¬e.isJoined = true := by
      cases e with
      | joined s p => exact absurd rfl (he s p)
      | _ => exact nofun
    exact (aside_note k net (.published e)).trans ((net.note _).aside_update k j (fun _ => rfl)
      (fun _ => rfl) fun _ => List.filter_cons_of_neg hnot)

theorem Amid.trans {meanwhile : Meanwhile} {marks marks' : List Mark} {net'' : Network}
    (h : Amid k t meanwhile marks net net') (h' : Amid k t meanwhile marks' net' net'') :
    Amid k t meanwhile (marks' ++ marks) net net'' := by
  induction h' with
  | refl => exact h
  | aside _ haside ih => exact (ih h).aside haside
  | call m endpoint request _ ih =>
    rw [List.append_assoc]
    exact (ih h).call m endpoint request

section Middles

variable (k : Nat) (t : Transport) (meanwhile : Meanwhile)

/-- The middle of a turn, whatever marks it leaves. -/
def Middle (net net' : Network) : Prop := ∃ marks, Amid k t meanwhile marks net net'

variable {k t meanwhile} in
theorem Aside.middle (h : Aside k net net') : Middle k t meanwhile net net' :=
  ⟨[], (Amid.refl net).aside h⟩

theorem middle_call (m : Method) (endpoint : String) (request : m.Request) (net : Network) :
    Middle k t meanwhile net (t m endpoint request net).2 :=
  ⟨_, (Amid.refl net).call m endpoint request⟩

theorem parts_middle : Parts (Middle k t meanwhile) k where
  refl net := ⟨[], .refl net⟩
  trans := fun ⟨_, h⟩ ⟨_, h'⟩ => ⟨_, h.trans h'⟩
  note net n hn := ((parts_aside k k).note net n hn).middle
  table net f := ((parts_aside k k).table net f).middle
  publish net e he := ((parts_aside k k).publish net e he).middle

/-- A round in which the member has a ring to keep may announce at its end, and nowhere else. -/
theorem keepRing_middle (net : Network) :
    ∃ net₁, Middle k t meanwhile net net₁ ∧ keepRing t k net = net₁.announceIfReady k := by
  have hparts := parts_middle k t meanwhile
  exact ⟨_, hparts.reported (hparts.stabilize (middle_call k t meanwhile) net) (by nofun), rfl⟩

theorem stabilizeRound_middle (net : Network) :
    ∃ net₁, Middle k t meanwhile (Turn.stabilize.opened k net) net₁ ∧
      (stabilizeRound t k net = net₁ ∨ stabilizeRound t k net = net₁.announceIfReady k) := by
  have hopened : Turn.stabilize.opened k net
      = if (net.peerSuccessor? k).isSome then net else net.setAnnounced k false := rfl
  rw [hopened, stabilizeRound]
  by_cases hp : (net.peerSuccessor? k).isSome
  · obtain ⟨net₁, hmiddle, he⟩ := keepRing_middle k t meanwhile net
    rw [if_pos hp, if_pos hp]
    exact ⟨net₁, hmiddle, .inr he⟩
  · rw [if_neg hp, if_neg hp]
    simp only
    split
    · obtain ⟨net₁, hmiddle, he⟩ := keepRing_middle k t meanwhile (net.setAnnounced k false)
      exact ⟨net₁, hmiddle, .inr he⟩
    · next through _ =>
      have hparts := parts_middle k t meanwhile
      let net₀ := net.setAnnounced k false
      have hnote := hparts.note net₀ (.rejoining (net₀.self k) through) (by nofun)
      have hjoin := hparts.trans hnote (hparts.join (middle_call k t meanwhile) through _)
      generalize join t k through _ = p at hjoin ⊢
      rcases p with ⟨fault | s, net₁⟩
      · have hfailed := hparts.note net₁ (.rejoinFailed through fault) (by nofun)
        exact ⟨_, hparts.trans hjoin hfailed, .inl rfl⟩
      · obtain ⟨net₂, hmiddle, he⟩ := keepRing_middle k t meanwhile net₁
        exact ⟨net₂, hparts.trans hjoin hmiddle, .inr he⟩

theorem enter_middle (through : String) (net : Network) :
    ∃ net₁, Middle k t meanwhile net net₁ ∧
      ((enter t k through net).2 = net₁ ∨ (enter t k through net).2 = net₁.announceIfReady k) := by
  have hparts := parts_middle k t meanwhile
  have hjoin := hparts.join (middle_call k t meanwhile) through net
  unfold enter
  generalize join t k through net = p at hjoin ⊢
  rcases p with ⟨fault | s, net₁⟩
  · exact ⟨net₁, hjoin, .inl rfl⟩
  · have hkeep := hparts.trans hjoin (hparts.stabilize (middle_call k t meanwhile) net₁)
    simp only
    generalize stabilize t k net₁ = q at hkeep ⊢
    rcases q with ⟨fault | _, net₂⟩
    · exact ⟨net₂, hkeep, .inl rfl⟩
    · exact ⟨net₂, hkeep, .inr rfl⟩

/-- Every turn has a beginning, a middle, and an end at which it may announce. -/
theorem turn_middle (turn : Turn) (net : Network) :
    ∃ net₁, Middle k t meanwhile (turn.opened k net) net₁ ∧
      (turn.act t k net = net₁ ∨ turn.act t k net = net₁.announceIfReady k) := by
  have hparts := parts_middle k t meanwhile
  have hcall := middle_call k t meanwhile
  cases turn with
  | bootstrap => exact ⟨_, hparts.refl _, .inl rfl⟩
  | enter through => exact enter_middle k t meanwhile through net
  | stabilize => exact stabilizeRound_middle k t meanwhile net
  | check => exact ⟨_, hparts.reported (hparts.check hcall net) (by nofun), .inl rfl⟩
  | refresh =>
    have hbegin : ∀ net : Network, Middle k t meanwhile net
        ((net.moveCursor k).note (.fixingFinger (fingerOfCursor (net.member k).cursor))) := by
      intro net
      have hmove : Aside k net (net.moveCursor k) :=
        net.aside_update k k (fun _ => rfl) (fun _ => rfl) fun _ => rfl
      exact (hmove.trans (aside_note k _ _)).middle
    exact ⟨_, hparts.fixFingers (hcall .successor) hbegin _ net, .inl rfl⟩
  | answer m request => exact ⟨_, hparts.answer hcall m request net, .inl rfl⟩

end Middles

/-! ## Lives -/

/-- A turn is taken over `t` and leaves `new`: the mark of its beginning, those of its requests, and those of
    what it announces at its end. -/
def Turn.Taken (turn : Turn) (k : Nat) (t : Transport) (meanwhile : Meanwhile) (net : Network)
    (new : List Mark) : Prop :=
  ∃ during net₁ told, Amid k t meanwhile during (turn.opened k net) net₁ ∧
    (turn.act t k net = net₁ ∨ turn.act t k net = net₁.announceIfReady k) ∧
    (turn.act t k net).told RingEvent.isJoined k = told ++ net₁.told RingEvent.isJoined k ∧
    new = told.map (.announced · (net₁.table k)) ++
      (during ++ [.began turn (net.peerSuccessor? k)])

/-- What the turns of the member at `k` come to, with the marks that they leave, the latest first. The transport
    may differ from turn to turn, and answer anything or nothing. What happens while a request is under way is
    a life of the member, too. -/
inductive Life (k : Nat) : Network → List Mark → Network → Prop where
  | start (net : Network) : Life k net [] net
  | aside {net₀ net net' : Network} {marks : List Mark} : Life k net₀ marks net → Aside k net net' →
      Life k net₀ marks net'
  | turn {net₀ net : Network} {marks new : List Mark} {t : Transport} {meanwhile : Meanwhile}
      {turn : Turn} : Life k net₀ marks net →
      (∀ m endpoint request net, Life k net (meanwhile m endpoint request net)
        (t m endpoint request net).2) →
      turn.Taken k t meanwhile net new → Life k net₀ (new ++ marks) (turn.act t k net)

/-- What a member has told once it has announced where it stands. -/
theorem told_of_joined {s p : Node} (h : net'.member k
      = { net.member k with announced := true, events := .joined s p :: (net.member k).events }) :
    net'.told RingEvent.isJoined k = [.joined s p] ++ net.told RingEvent.isJoined k := by
  rw [told, h]
  rfl

/-- A turn that does not renew the membership does nothing before its first request. -/
theorem opened_eq_self {turn : Turn} (h : ¬(Mark.began turn (net.peerSuccessor? k)).Renews) :
    turn.opened k net = net := by
  cases turn with
  | bootstrap => exact absurd trivial h
  | stabilize =>
    cases hp : net.peerSuccessor? k with
    | none =>
      rw [hp] at h
      exact absurd trivial h
    | some s => exact if_pos (by rw [hp]; rfl)
  | _ => rfl

theorem self_opened (k : Nat) (turn : Turn) (net : Network) : (turn.opened k net).self = net.self := by
  cases turn with
  | bootstrap => exact (net.confined_bootstrap (List.mem_singleton_self k)).self
  | stabilize =>
    show (if _ then _ else _ : Network).self = _
    split
    · rfl
    · exact (net.confined_setAnnounced (List.mem_singleton_self k) _).self
  | _ => rfl

theorem told_opened (p : RingEvent → Bool) (k : Nat) (turn : Turn) (net : Network) :
    (turn.opened k net).told p = net.told p := by
  cases turn with
  | bootstrap =>
    have hreset : (net.reset k).told p = net.told p := by
      rw [reset, told_note, told_modifyTable]
    exact (told_setAnnounced (net.reset k) k false).trans hreset
  | stabilize =>
    show (if _ then _ else _ : Network).told p = _
    split
    · rfl
    · exact net.told_setAnnounced k _
  | _ => rfl

/-! ## Announcements -/

/-- The membership began anew after the last announcement, if there was one. -/
def RenewedSince (marks : List Mark) : Prop :=
  ∀ between earlier e known, marks = between ++ .announced e known :: earlier →
    ∃ mark ∈ between, mark.Renews

/-- Between two announcements the membership began anew. -/
def RenewedBetween (marks : List Mark) : Prop :=
  ∀ later between earlier e e' known known',
    marks = later ++ .announced e known :: (between ++ .announced e' known' :: earlier) →
    ∃ mark ∈ between, mark.Renews

section Marks

variable {marks : List Mark}

/-- Another turn begins. It renews the membership, or that has been done. -/
theorem RenewedSince.began {turn : Turn} {peer : Option Node}
    (h : (Mark.began turn peer).Renews ∨ RenewedSince marks) :
    RenewedSince (.began turn peer :: marks) := by
  intro between earlier e known heq
  cases between with
  | nil => cases heq
  | cons mark between =>
    obtain ⟨rfl, htail⟩ := List.cons.inj heq
    obtain h | h := h
    · exact ⟨_, List.mem_cons_self, h⟩
    · obtain ⟨mark, hmem, hrenews⟩ := h between earlier e known htail
      exact ⟨mark, List.mem_cons_of_mem _ hmem, hrenews⟩

theorem RenewedBetween.began {turn : Turn} {peer : Option Node} (h : RenewedBetween marks) :
    RenewedBetween (.began turn peer :: marks) := by
  intro later between earlier e e' known known' heq
  cases later with
  | nil => cases heq
  | cons mark later =>
    exact h later between earlier e e' known known' (List.cons.inj heq).2

theorem RenewedBetween.announced {e : RingEvent} {known : Table} (h : RenewedBetween marks)
    (hsince : RenewedSince marks) : RenewedBetween (.announced e known :: marks) := by
  intro later between earlier e₁ e₂ known₁ known₂ heq
  cases later with
  | nil => exact hsince between earlier e₂ known₂ (List.cons.inj heq).2
  | cons mark later =>
    exact h later between earlier e₁ e₂ known₁ known₂ (List.cons.inj heq).2

end Marks

/-- What a life comes to, said by its marks: it announces only after the membership began anew, and only where
    the member sits in a ring. -/
structure Announces (k : Nat) (net₀ : Network) (marks : List Mark) (net : Network) : Prop where
  told : net.told RingEvent.isJoined k
    = marks.filterMap Mark.event? ++ net₀.told RingEvent.isJoined k
  between : RenewedBetween marks
  seated : ∀ e known, .announced e known ∈ marks → ∃ s p, e = .joined s p ∧
    s ≠ net₀.self k ∧ known.successor? = some s ∧ known.predecessor = some p

/-- Besides, a member that does not remember that it has announced itself has begun anew since. -/
structure Noted (k : Nat) (net₀ : Network) (marks : List Mark) (net : Network) : Prop
    extends Announces k net₀ marks net where
  self : net.self k = net₀.self k
  since : (net.member k).announced = false → RenewedSince marks

section Noted

variable {marks : List Mark}

theorem noted_start (k : Nat) (net₀ : Network) : Noted k net₀ [] net₀ where
  self := rfl
  told := rfl
  since _ := by
    intro between earlier e known heq
    cases between <;> cases heq
  between := by
    intro later between earlier e e' known known' heq
    cases later <;> cases heq
  seated := nofun

theorem Noted.aside (h : Noted k net₀ marks net) (haside : Aside k net net') :
    Noted k net₀ marks net' where
  self := haside.self.trans h.self
  told := haside.told.trans h.told
  since hf := h.since (haside.announced ▸ hf)
  between := h.between
  seated := h.seated

theorem Noted.opened (h : Noted k net₀ marks net) (turn : Turn) :
    Noted k net₀ (.began turn (net.peerSuccessor? k) :: marks) (turn.opened k net) where
  self := (congrFun (self_opened k turn net) k).trans h.self
  told := (congrFun (told_opened _ k turn net) k).trans h.told
  since hf := by
    -- a turn makes the member forget only where its mark says that the membership begins anew
    by_cases hr : (Mark.began turn (net.peerSuccessor? k)).Renews
    · exact .began (.inl hr)
    · rw [opened_eq_self hr] at hf
      exact .began (.inr (h.since hf))
  between := h.between.began
  seated e known hmem := by
    obtain heq | hmem := List.mem_cons.1 hmem
    · cases heq
    · exact h.seated e known hmem

theorem Noted.closed (h : Noted k net₀ marks net) {new : List RingEvent}
    (hnew : (net.announceIfReady k).told RingEvent.isJoined k
      = new ++ net.told RingEvent.isJoined k) :
    Noted k net₀ (new.map (.announced · (net.table k)) ++ marks) (net.announceIfReady k) := by
  obtain hsame | ⟨s, p, hs, hp, hpeer, hforgot, hmember⟩ := net.announceIfReady_cases k
  · rw [hsame, List.self_eq_append_left] at hnew
    rw [hnew, hsame]
    exact h
  · have htold := told_of_joined hmember
    have hone : new = [.joined s p] := List.append_cancel_right (hnew.symm.trans htold)
    subst hone
    exact {
      self := (congrArg Member.self hmember).trans h.self
      told := htold.trans (congrArg _ h.told)
      since := fun hf => absurd ((congrArg Member.announced hmember).symm.trans hf) nofun
      between := h.between.announced (h.since hforgot)
      seated := by
        intro e known hmem
        obtain heq | hmem := List.mem_cons.1 hmem
        · cases heq
          exact ⟨s, p, rfl, h.self ▸ hpeer, hs, hp⟩
        · exact h.seated e known hmem }

end Noted

/-- What the beginnings of turns, asides, and places where an announcement may be made come to, in any order, with
    the marks that they leave. -/
inductive Pieces (k : Nat) (net₀ : Network) : List Mark → Network → Prop where
  | start : Pieces k net₀ [] net₀
  | aside {marks : List Mark} {net net' : Network} : Pieces k net₀ marks net → Aside k net net' →
      Pieces k net₀ marks net'
  | opened {marks : List Mark} {net : Network} (turn : Turn) : Pieces k net₀ marks net →
      Pieces k net₀ (.began turn (net.peerSuccessor? k) :: marks) (turn.opened k net)
  | closed {marks : List Mark} {net : Network} {new : List RingEvent} : Pieces k net₀ marks net →
      (net.announceIfReady k).told RingEvent.isJoined k = new ++ net.told RingEvent.isJoined k →
      Pieces k net₀ (new.map (.announced · (net.table k)) ++ marks) (net.announceIfReady k)

theorem Pieces.noted {marks : List Mark} (h : Pieces k net₀ marks net) : Noted k net₀ marks net := by
  induction h with
  | start => exact noted_start k net₀
  | aside _ haside ih => exact ih.aside haside
  | opened turn _ ih => exact ih.opened turn
  | closed _ hnew ih => exact ih.closed hnew

/-! ## Runs -/

section Runs

variable {marks marks' new : List Mark} {meanwhile : Meanwhile} {turn : Turn}

theorem Pieces.trans (h : Pieces k net₀ marks net) (h' : Pieces k net marks' net') :
    Pieces k net₀ (marks' ++ marks) net' := by
  induction h' with
  | start => exact h
  | aside _ haside ih => exact ih.aside haside
  | opened turn _ ih => exact ih.opened turn
  | closed _ hnew ih =>
    rw [List.append_assoc]
    exact ih.closed hnew

/-- The middle of a turn comes to pieces if its requests do. -/
theorem Amid.pieces (hcalls : ∀ m endpoint request net,
      Pieces k net (meanwhile m endpoint request net) (t m endpoint request net).2)
    (h : Amid k t meanwhile marks net net') : Pieces k net marks net' := by
  induction h with
  | refl => exact .start
  | aside _ haside ih => exact ih.aside haside
  | call m endpoint request _ ih => exact ih.trans (hcalls m endpoint request _)

theorem Pieces.taken (h : Pieces k net₀ marks net) (hcalls : ∀ m endpoint request net,
      Pieces k net (meanwhile m endpoint request net) (t m endpoint request net).2)
    (htaken : turn.Taken k t meanwhile net new) : Pieces k net₀ (new ++ marks) (turn.act t k net) := by
  obtain ⟨during, net₁, told, hamid, hend, htold, rfl⟩ := htaken
  have hrun := (h.opened turn).trans (hamid.pieces hcalls)
  rw [List.append_assoc, List.append_assoc, List.singleton_append]
  obtain hend | hend := hend
  · rw [hend] at htold ⊢
    obtain rfl := List.self_eq_append_left.1 htold
    exact hrun
  · rw [hend] at htold ⊢
    exact hrun.closed htold

/-- A life comes to pieces, with the same marks. -/
theorem Life.pieces (h : Life k net₀ marks net) : Pieces k net₀ marks net := by
  -- the requests of a turn are shorter lives, and come to pieces by the induction as well
  induction h with
  | start => exact .start
  | aside _ haside ih => exact ih.aside haside
  | turn _ _ htaken ih hcalls => exact ih.taken hcalls htaken

theorem exists_taken (k : Nat) (t : Transport) (meanwhile : Meanwhile) (turn : Turn) (net : Network) :
    ∃ new, turn.Taken k t meanwhile net new := by
  obtain ⟨net₁, ⟨during, hamid⟩, hend⟩ := turn_middle k t meanwhile turn net
  have htold : ∃ told, (turn.act t k net).told RingEvent.isJoined k
      = told ++ net₁.told RingEvent.isJoined k := by
    obtain hend | hend := hend
    · exact ⟨[], by rw [hend]; rfl⟩
    · obtain hsame | ⟨s, p, -, -, -, -, hmember⟩ := net₁.announceIfReady_cases k
      · exact ⟨[], by rw [hend, hsame]; rfl⟩
      · exact ⟨_, by rw [hend]; exact told_of_joined hmember⟩
  obtain ⟨told, htold⟩ := htold
  exact ⟨_, during, net₁, told, hamid, hend, htold, rfl⟩

/-- Where requests are asides, the middle of a turn is one, and leaves no marks. -/
theorem Amid.of_asides (hcalls : ∀ m endpoint request net, Aside k net (t m endpoint request net).2)
    (h : Amid k t (fun _ _ _ _ => []) marks net net') : marks = [] ∧ Aside k net net' := by
  induction h with
  | refl net => exact ⟨rfl, .refl k net⟩
  | aside _ haside ih => exact ⟨ih.1, ih.2.trans haside⟩
  | call m endpoint request _ ih => exact ⟨ih.1, ih.2.trans (hcalls m endpoint request _)⟩

/-- A turn during which nothing else happens leaves the mark of its beginning and what it announces. -/
theorem taken_of_asides (hcalls : ∀ m endpoint request net, Aside k net (t m endpoint request net).2)
    {told : List RingEvent} (htold : (turn.act t k net).told RingEvent.isJoined k
      = told ++ net.told RingEvent.isJoined k) :
    turn.Taken k t (fun _ _ _ _ => []) net (told.map (.announced · ((turn.act t k net).table k)) ++
      [.began turn (net.peerSuccessor? k)]) := by
  obtain ⟨_, during, net₁, told', hamid, hend, htold', rfl⟩ :=
    exists_taken k t (fun _ _ _ _ => []) turn net
  obtain ⟨rfl, haside⟩ := hamid.of_asides hcalls
  have hbefore : net₁.told RingEvent.isJoined k = net.told RingEvent.isJoined k :=
    haside.told.trans (congrFun (told_opened _ k turn net) k)
  rw [hbefore, htold] at htold'
  obtain rfl := List.append_cancel_right htold'
  have htable : (turn.act t k net).table k = net₁.table k := by
    obtain hend | hend := hend
    · rw [hend]
    · rw [hend, table_announceIfReady]
  rw [htable]
  exact ⟨[], net₁, told, hamid, hend, by rw [hbefore, htold], rfl⟩

theorem life_of_asides (hcalls : ∀ m endpoint request net, Aside k net (t m endpoint request net).2)
    (m : Method) (endpoint : String) (request : m.Request) (net : Network) :
    Life k net [] (t m endpoint request net).2 :=
  (Life.start net).aside (hcalls m endpoint request net)

/-- Such a turn carries a life on. -/
theorem Life.turn_of_asides (h : Life k net₀ marks net)
    (hcalls : ∀ m endpoint request net, Aside k net (t m endpoint request net).2) {peer : Option Node}
    (hpeer : net.peerSuccessor? k = peer) {told : List RingEvent}
    (htold : (turn.act t k net).told RingEvent.isJoined k = told ++ net.told RingEvent.isJoined k) :
    Life k net₀ (told.map (.announced · ((turn.act t k net).table k)) ++ .began turn peer :: marks)
      (turn.act t k net) := by
  have hturn := h.turn (life_of_asides hcalls) (taken_of_asides hcalls htold)
  rwa [List.append_assoc, hpeer] at hturn

end Runs

/-- The requests of members are asides. -/
theorem aside_outgoing (k d : Nat) (m : Method) (endpoint : String) (request : m.Request)
    (net : Network) : Aside k net (outgoing relay d m endpoint request net).2 :=
  outgoing_of_parts (parts_aside k) (fun _ _ _ _ => ⟨rfl, rfl, rfl⟩) (fun _ _ => ⟨rfl, rfl, rfl⟩) d m
    endpoint request net

/-- Every turn over a transport during whose requests the member lives on carries a life on. And whatever turns
    a member takes, in whatever order and over whatever transport: between two announcements that it is part
    of the ring it starts a ring of its own, or a round of keeping the ring while slot 0 names no peer; what
    it announces is the peer in slot 0 and the predecessor that its table names then. The same holds where
    the pieces of turns alternate in any other way. -/
theorem announced_once (k : Nat) (net₀ : Network) :
    (∀ {t : Transport} {meanwhile : Meanwhile} {marks : List Mark} {net : Network},
      (∀ m endpoint request net, Life k net (meanwhile m endpoint request net)
        (t m endpoint request net).2) →
      Life k net₀ marks net → ∀ turn : Turn, ∃ new, turn.Taken k t meanwhile net new ∧
        Life k net₀ (new ++ marks) (turn.act t k net)) ∧
    (∀ {marks : List Mark} {net : Network}, Life k net₀ marks net → Announces k net₀ marks net) ∧
    ∀ {marks : List Mark} {net : Network}, Pieces k net₀ marks net → Announces k net₀ marks net := by
  refine ⟨?_, fun hlife => hlife.pieces.noted.toAnnounces, fun hpieces => hpieces.noted.toAnnounces⟩
  intro t meanwhile marks net hcalls hlife turn
  obtain ⟨new, htaken⟩ := exists_taken k t meanwhile turn net
  exact ⟨new, htaken, hlife.turn hcalls htaken⟩

/-- Three members that do not know each other. The second is set up to join again through the third. -/
def unacquainted : Network where
  members := [{ self := ⟨.ofNat 1, "a"⟩, hopLimit := 4, joinThrough := none, fingersPerTick := 1 },
    { self := ⟨.ofNat 5, "b"⟩, hopLimit := 4, joinThrough := some "c", fingersPerTick := 1 },
    { self := ⟨.ofNat 9, "c"⟩, hopLimit := 4, joinThrough := none, fingersPerTick := 1 }]
  registry := [("a", 0), ("b", 1), ("c", 2)]

/-- The second has joined through the first. -/
def acquainted : Network := Turn.act transport 1 unacquainted (.enter "a")

/-- The first is gone, and the second has lost its successor in one round. -/
def stranded : Network := Turn.act transport 1 (acquainted.drop 0) .stabilize

/-- In the next round it has joined through the third. -/
def readmitted : Network := Turn.act transport 1 stranded .stabilize

/-- The marks of all that. -/
def readmission : List Mark :=
  [.announced (.joined ⟨.ofNat 9, "c"⟩ ⟨.ofNat 9, "c"⟩) (readmitted.table 1), .began .stabilize none,
    .began .stabilize (some ⟨.ofNat 1, "a"⟩),
    .announced (.joined ⟨.ofNat 1, "a"⟩ ⟨.ofNat 1, "a"⟩) (acquainted.table 1), .began (.enter "a") none]

/-- These are the marks of a life, and every further turn carries it on. The second announces twice that it is
    part of a ring, and between the announcements begins a round without a successor. -/
theorem announced_once_readmitted :
    Life 1 unacquainted readmission readmitted ∧
    (∀ turn : Turn, ∃ new, turn.Taken 1 transport (fun _ _ _ _ => []) readmitted new ∧
      Life 1 unacquainted (new ++ readmission) (turn.act transport 1 readmitted)) ∧
    readmitted.told RingEvent.isJoined 1
      = [.joined ⟨.ofNat 9, "c"⟩ ⟨.ofNat 9, "c"⟩, .joined ⟨.ofNat 1, "a"⟩ ⟨.ofNat 1, "a"⟩] ∧
    ∃ mark ∈ [Mark.began .stabilize none, .began .stabilize (some ⟨.ofNat 1, "a"⟩)], mark.Renews := by
  have hcalls : ∀ m endpoint request net, Aside 1 net (transport m endpoint request net).2 :=
    fun m endpoint request net => aside_outgoing 1 _ m endpoint request net
  obtain ⟨hpeer, htold, hpeer', htold', hpeer'', htold''⟩ : unacquainted.peerSuccessor? 1 = none ∧
      acquainted.told RingEvent.isJoined 1
        = [.joined ⟨.ofNat 1, "a"⟩ ⟨.ofNat 1, "a"⟩] ++ unacquainted.told RingEvent.isJoined 1 ∧
      (acquainted.drop 0).peerSuccessor? 1 = some ⟨.ofNat 1, "a"⟩ ∧
      stranded.told RingEvent.isJoined 1 = [] ++ (acquainted.drop 0).told RingEvent.isJoined 1 ∧
      stranded.peerSuccessor? 1 = none ∧
      readmitted.told RingEvent.isJoined 1
        = [.joined ⟨.ofNat 9, "c"⟩ ⟨.ofNat 9, "c"⟩] ++ stranded.told RingEvent.isJoined 1 := by
    decide +kernel
  have hentered : Life 1 unacquainted (readmission.drop 3) acquainted :=
    (Life.start unacquainted).turn_of_asides hcalls hpeer htold
  have hleft : Life 1 unacquainted (readmission.drop 3) (acquainted.drop 0) :=
    hentered.aside (aside_update _ 1 0 (fun _ => rfl) (fun _ => rfl) fun _ => rfl)
  have hlost : Life 1 unacquainted (readmission.drop 2) stranded :=
    hleft.turn_of_asides hcalls hpeer' htold'
  have hlife : Life 1 unacquainted readmission readmitted :=
    hlost.turn_of_asides hcalls hpeer'' htold''
  obtain ⟨hturn, hannounces, -⟩ := announced_once 1 unacquainted
  exact ⟨hlife, hturn (life_of_asides hcalls) hlife, (hannounces hlife).told,
    (hannounces hlife).between [] [_, _] [_] _ _ _ _ rfl⟩

end Network

end RingOverlay
