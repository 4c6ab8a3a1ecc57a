import RingOverlay.Proofs.Scheduler.Owed
import RingOverlay.Scheduler.Run

/-!
# `Scheduler.Shutdown` — when a scheduler has been shut down

A call that shuts a scheduler down returns when tasks have been asked to stop, no more are expected and
none is left (`ShutDown`). Then nothing that was started is under way, and nothing starts in whatever
course follows. Such a call does return: each move of a task that is asked to stop brings the end nearer
(`rank`), and at each due time a job ends.

That nothing starts any more is said of jobs that are not added again. Nobody is kept from adding one after
the call has returned. Its task is asked to stop as soon as it waits; but where its delay is 0 its time has
come by then, too, and a task that can do both may take its tick instead and do the job
(`ShutDown.start_late`).

## Contents
- **Shut down.** `ShutDown`, `ShutDown.balance`, `ShutDown.quiet`; `ShutDown.start_late`.
- **Nearer to the end.** `rank`, and what it loses with a move under a request to stop.
- **One moment.** `Idle`, `Unaided`, `Calmed`, `Sound.settle`.
- **To the end.** `Sound.drain`, `Sound.shutdown`.
- **The scheduler.** `Course.bounded_once_quiet`.
- **An instance.** `rivalry`.
-/

namespace RingOverlay.Scheduler

variable {α : Type}

/-! ## Shut down -/

/-- A call that shuts the scheduler down can return. -/
structure ShutDown (s : Scheduler α) : Prop where
  stopping : s.stopping = true
  closed : s.closed = true
  tasks : s.tasks = []

theorem ShutDown.running {s : Scheduler α} (h : s.ShutDown) : s.running = [] := by
  rw [Scheduler.running, h.tasks]
  rfl

section Quiet

variable [DecidableEq α] {s s' : Scheduler α} {workers : Nat} {job : Job α}

/-- What was started has been finished. -/
theorem ShutDown.balance (h : s.ShutDown) (hs : Sound workers s) (job : Job α) :
    s.starts job = s.ends job := by
  have hbalance := hs.balance job
  rw [tally, h.tasks] at hbalance
  exact hbalance

/-- A job that is not added again is not started again, and no task is at work on it. -/
theorem ShutDown.quiet (h : s.ShutDown) (hs : Sound workers s) {later : List (Move α)}
    (hc : Course s later s') (hj : ∀ plan, .schedule plan job ∉ later) :
    s'.starts job = s.starts job ∧ ∀ t ∈ s'.running, t.job ≠ job := by
  have hnone : later.countP (·.delays job) = 0 := by
    rw [List.countP_eq_zero]
    intro m hm hd
    obtain ⟨plan, rfl⟩ := Move.eq_schedule_of_delays hd
    exact hj plan hm
  have howed := (hc.limited hs (limited_of_tasks_eq_nil h.tasks) fun period => hj (.every period)).owed
  rw [hnone] at howed
  have hstarts : s.starts job ≤ s'.starts job := hc.history.sublist.countP_le
  have hends : s.ends job ≤ s'.ends job := hc.history.sublist.countP_le
  have hbefore := h.balance hs job
  have hafter := (hc.sound hs).balance job
  refine ⟨by omega, ?_⟩
  intro t ht he
  obtain ⟨ht, hp⟩ := List.mem_filter.1 ht
  have hpos : 0 < s'.tally (worksOn job) :=
    List.countP_pos_iff.2 ⟨t, ht, decide_eq_true ⟨of_decide_eq_true hp, he⟩⟩
  omega

/-- A job that is added after all with no delay can be started. -/
theorem ShutDown.start_late (h : s.ShutDown) (hs : Sound workers s) (hw : 0 < workers)
    (job : Job α) : ∃ s', Course s [.fire s.nextId, .acquire s.nextId, .take s.nextId,
      .begin s.nextId, .schedule (.after 0) job] s' ∧ s'.starts job = s.starts job + 1 := by
  have hfree : 0 < s.free := by
    have hpool := hs.pool
    rw [tally, h.tasks, List.countP_nil, Nat.add_zero] at hpool
    exact hpool ▸ hw
  -- no other task is there, so each move finds the task that was added
  obtain ⟨s', hmoves, hstarts⟩ : ∃ s', [.schedule (.after 0) job, .begin s.nextId, .take s.nextId,
      .acquire s.nextId, .fire s.nextId].foldlM step? s = some s' ∧
        s'.starts job = s.starts job + 1 := by
    simp [step?, onTask?, find?, spawn, begin, take, acquire, fire, beginWork, put, record, waitFor,
      starts, h.tasks, hfree]
  exact ⟨s', .ofMoves (by simp [Move.offered]) hmoves, hstarts⟩

end Quiet

/-! ## Nearer to the end -/

/-- Whether a task has not run yet. -/
def unbegun (t : Task α) : Bool := t.phase = .fresh

/-- How many moves are left at most while tasks are asked to stop: two of a task that has not run yet and
    one of any other. -/
def rank (s : Scheduler α) : Nat := s.tally (fun _ => true) + s.tally unbegun

section Rank

variable {s : Scheduler α} {t t' : Task α} {id : Nat}

theorem length_tasks (s : Scheduler α) : s.tally (fun _ => true) = s.tasks.length :=
  congrFun List.countP_true s.tasks

theorem Numbered.rank_erase (h : s.Numbered) (hf : s.find? id = some t) :
    (s.erase id).rank < s.rank := by
  have hall := h.tally_erase (p := fun _ => true) hf
  have hnew := h.tally_erase (p := unbegun) hf
  rw [Bool.toNat_true] at hall
  unfold rank
  omega

theorem Numbered.rank_release (h : s.Numbered) : s.release.rank = s.rank := by
  rw [rank, h.tally_release fun t _ => rfl, h.tally_release fun t hq => by simp [unbegun, hq], ← rank]

/-- A task has run for the first time. -/
theorem Numbered.rank_put (h : s.Numbered) (hf : s.find? t'.id = some t) (hp : t.phase = .fresh)
    (hp' : t'.phase ≠ .fresh) : (s.put t').rank < s.rank := by
  have hall := h.tally_put (p := fun _ => true) hf
  have hnew := h.tally_put (p := unbegun) hf
  rw [show unbegun t = true from decide_eq_true hp, show unbegun t' = false from decide_eq_false hp',
    Bool.toNat_true, Bool.toNat_false] at hnew
  unfold rank
  omega

theorem Numbered.rank_begin (h : s.Numbered) (hf : s.find? t.id = some t) (hp : t.phase = .fresh) :
    (s.begin t).rank < s.rank := by
  unfold begin
  split
  · simp only
    split
    · exact (h.record _).rank_erase hf
    · exact (h.record _).rank_put hf hp nofun
  · exact h.rank_put hf hp nofun
  · obtain ⟨t', hid, hp', -, -, he⟩ := beginWork_eq s t
    rw [he]
    exact h.rank_put (hid ▸ hf) hp (hp'.symm ▸ nofun)

theorem Numbered.rank_finish (h : s.Numbered) (hf : s.find? t.id = some t) :
    (s.finish t).rank < s.rank := by
  have h₁ := h.record (.finished t.job)
  rw [finish, (h₁.erase t.id).rank_release]
  exact h₁.rank_erase hf

theorem Numbered.rank_stop (h : s.Numbered) (hf : s.find? t.id = some t) :
    (s.stop t).rank < s.rank := by
  obtain ⟨s₁, ⟨h₁, hf₁, hrank⟩, he⟩ := stop_eq
    (P := fun s₁ => s₁.Numbered ∧ s₁.find? t.id = some t ∧ s₁.rank = s.rank)
    ⟨h, hf, rfl⟩ (fun n => ⟨h.record _, hf, rfl⟩) t
  rw [he, ← hrank]
  split
  · rw [(h₁.erase t.id).rank_release]
    exact h₁.rank_erase hf₁
  · exact h₁.rank_erase hf₁

end Rank

/-! ## One moment -/

/-- All tasks have to wait. -/
def Idle (s : Scheduler α) : Prop := ∀ t ∈ s.tasks, s.move? t = none

/-- The clock stands still, and the same is asked of tasks. -/
structure Standing (s s' : Scheduler α) : Prop where
  now : s'.now = s.now
  stopping : s'.stopping = s.stopping
  closed : s'.closed = s.closed

/-- The state `s` leads to another one without a job being added. -/
def Unaided (s s' : Scheduler α) : Prop :=
  ∃ moves, Course s moves s' ∧ ∀ plan job, .schedule plan job ∉ moves

/-- Tasks have moved, and the end is nearer unless there was nothing to do. -/
structure Calmed (s s' : Scheduler α) : Prop extends Standing s s' where
  unaided : Unaided s s'
  rank : s' = s ∨ s'.rank < s.rank

section Moment

variable {s s' s'' : Scheduler α} {t : Task α} {m : Move α} {id last fuel workers : Nat}

theorem standing_release (s : Scheduler α) : Standing s s.release := by
  unfold release
  split <;> exact ⟨rfl, rfl, rfl⟩

theorem standing_begin (s : Scheduler α) (t : Task α) : Standing s (s.begin t) := by
  unfold begin
  split
  · simp only
    split <;> exact ⟨rfl, rfl, rfl⟩
  · exact ⟨rfl, rfl, rfl⟩
  · exact ⟨rfl, rfl, rfl⟩

theorem standing_finish (s : Scheduler α) (t : Task α) : Standing s (s.finish t) := by
  obtain ⟨hnow, hstopping, hclosed⟩ := standing_release ((s.record (.finished t.job)).erase t.id)
  exact ⟨hnow, hstopping, hclosed⟩

theorem standing_stop (s : Scheduler α) (t : Task α) : Standing s (s.stop t) := by
  obtain ⟨s₁, h₁, he⟩ := stop_eq (P := Standing s) ⟨rfl, rfl, rfl⟩ (fun n => ⟨rfl, rfl, rfl⟩) t
  rw [he]
  split
  · obtain ⟨hnow, hstopping, hclosed⟩ := standing_release (s₁.erase t.id)
    exact ⟨hnow.trans h₁.now, hstopping.trans h₁.stopping, hclosed.trans h₁.closed⟩
  · exact ⟨h₁.now, h₁.stopping, h₁.closed⟩

theorem Unaided.refl (s : Scheduler α) : Unaided s s := ⟨[], .refl, fun _ _ => List.not_mem_nil⟩

theorem Unaided.trans (h : Unaided s s') (h' : Unaided s' s'') : Unaided s s'' := by
  obtain ⟨moves, hc, hn⟩ := h
  obtain ⟨moves', hc', hn'⟩ := h'
  refine ⟨moves' ++ moves, hc.trans hc', ?_⟩
  intro plan job hm
  exact (List.mem_append.1 hm).elim (hn' plan job) (hn plan job)

theorem Unaided.of_step (hs : s.step? m = some s') (hm : ∀ plan job, m ≠ .schedule plan job) :
    Unaided s s' := by
  have ho : m.offered = true := by
    cases m with
    | schedule plan job => exact absurd rfl (hm plan job)
    | _ => rfl
  exact ⟨[m], .move ho hs .refl, fun plan job hmem => hm plan job (List.mem_singleton.1 hmem).symm⟩

theorem Unaided.noted (s : Scheduler α) (n : Note) : Unaided s (s.record (.noted n)) :=
  ⟨[], .noted n .refl, fun _ _ => List.not_mem_nil⟩

theorem Calmed.refl (s : Scheduler α) : Calmed s s := ⟨⟨rfl, rfl, rfl⟩, .refl s, .inl rfl⟩

theorem Calmed.trans (h : Calmed s s') (h' : Calmed s' s'') : Calmed s s'' where
  now := h'.now.trans h.now
  stopping := h'.stopping.trans h.stopping
  closed := h'.closed.trans h.closed
  unaided := h.unaided.trans h'.unaided
  rank := by
    obtain rfl | hlt := h.rank
    · exact h'.rank
    · obtain rfl | hlt' := h'.rank
      · exact .inr hlt
      · exact .inr (Nat.lt_trans hlt' hlt)

/-- The next move is one that a task can make. -/
theorem Numbered.next?_eq_some (h : s.Numbered) (hm : s.next? last = some (id, m)) :
    ∃ t, s.find? id = some t ∧ s.move? t = some m := by
  unfold next? at hm
  rcases Option.or_eq_some_iff.1 hm with hm | ⟨-, hm⟩
  · obtain ⟨t, hf, hm⟩ := Option.bind_eq_some_iff.1 hm
    obtain ⟨m', hm', he⟩ := Option.map_eq_some_iff.1 hm
    obtain ⟨rfl, rfl⟩ := Prod.mk.inj he
    exact ⟨t, id_of_find? hf ▸ hf, hm'⟩
  · obtain ⟨t, ht, hm⟩ := List.exists_of_findSome?_eq_some hm
    obtain ⟨m', hm', he⟩ := Option.map_eq_some_iff.1 hm
    obtain ⟨rfl, rfl⟩ := Prod.mk.inj he
    exact ⟨t, h.find? ht, hm'⟩

theorem idle_of_next? (h : s.next? last = none) : s.Idle := by
  intro t ht
  have hnone := List.findSome?_eq_none_iff.1 (Option.or_eq_none_iff.1 h).2 t ht
  exact Option.map_eq_none_iff.1 hnone

theorem Phase.heedsStop_of_ne {phase : Phase} (hf : phase ≠ .fresh) (hw : phase ≠ .working) :
    phase.heedsStop = true := by
  cases phase with
  | fresh => exact absurd rfl hf
  | working => exact absurd rfl hw
  | _ => rfl

/-- A task that is asked to stop does so, unless it has not run yet or is at work. -/
theorem move?_of_stopping (hs : s.stopping = true) (t : Task α) : s.move? t =
    match t.phase with
    | .fresh => some (.begin t.id)
    | .working => if t.due ≤ s.now then some (.finish t.id) else none
    | _ => some (.stop t.id) := by
  unfold move?
  rw [hs]
  cases t.phase <;> rfl

/-- A move of a task that is asked to stop can be made and brings the end nearer. -/
theorem Numbered.calmed_step (h : s.Numbered) (hs : s.stopping = true) (hf : s.find? t.id = some t)
    (hm : s.move? t = some m) : ∃ s', s.step? m = some s' ∧ Calmed s s' ∧ s'.rank < s.rank := by
  rw [move?_of_stopping hs] at hm
  split at hm
  · next hp =>
    obtain rfl := Option.some_inj.1 hm
    have hstep : s.step? (.begin t.id) = some (s.begin t) := by simp [step?, onTask?, hf, hp]
    have hrank := h.rank_begin hf hp
    exact ⟨_, hstep, ⟨standing_begin s t, .of_step hstep nofun, .inr hrank⟩, hrank⟩
  · next hp =>
    obtain ⟨hd, hm⟩ := Option.ite_none_right_eq_some.1 hm
    obtain rfl := Option.some_inj.1 hm
    have hstep : s.step? (.finish t.id) = some (s.finish t) := by simp [step?, onTask?, hf, hp, hd]
    have hrank := h.rank_finish hf
    exact ⟨_, hstep, ⟨standing_finish s t, .of_step hstep nofun, .inr hrank⟩, hrank⟩
  · next hfresh hworking =>
    obtain rfl := Option.some_inj.1 hm
    have hp := Phase.heedsStop_of_ne hfresh hworking
    have hstep : s.step? (.stop t.id) = some (s.stop t) := by simp [step?, onTask?, hf, hp, hs]
    have hrank := h.rank_stop hf
    exact ⟨_, hstep, ⟨standing_stop s t, .of_step hstep nofun, .inr hrank⟩, hrank⟩

variable [DecidableEq α]

theorem Unaided.sound (h : Unaided s s') (hs : Sound workers s) : Sound workers s' := by
  obtain ⟨moves, hc, -⟩ := h
  exact hc.sound hs

/-- With so many moves as are left, tasks come to wait. -/
theorem Sound.settleFrom (h : Sound workers s) (hs : s.stopping = true) (hfuel : s.rank ≤ fuel) :
    Calmed s (settleFrom last fuel s) ∧ (settleFrom last fuel s).Idle := by
  induction fuel generalizing s last with
  | zero =>
    have hnil : s.tasks = [] := by
      rw [rank, length_tasks] at hfuel
      exact List.length_eq_zero_iff.1 (by omega)
    refine ⟨.refl s, ?_⟩
    intro t ht
    rw [Scheduler.settleFrom, hnil] at ht
    cases ht
  | succ fuel ih =>
    unfold Scheduler.settleFrom
    split
    · next hnone => exact ⟨.refl s, idle_of_next? hnone⟩
    · next id m hnext =>
      obtain ⟨t, hf, hm⟩ := h.toNumbered.next?_eq_some hnext
      obtain rfl := id_of_find? hf
      obtain ⟨s', hstep, hcalmed, hrank⟩ := h.toNumbered.calmed_step hs hf hm
      rw [hstep]
      obtain ⟨hrest, hidle⟩ : Calmed s' (Scheduler.settleFrom t.id fuel s') ∧ _ :=
        ih (hcalmed.unaided.sound h) (hcalmed.stopping.trans hs) (by omega)
      exact ⟨hcalmed.trans hrest, hidle⟩

omit [DecidableEq α] in
theorem rank_le_effort (s : Scheduler α) : s.rank ≤ s.effort := by
  have hfold : ∀ (l : List (Task α)) (n : Nat), n + 2 * l.length
      ≤ l.foldl (fun n t => n + (6 * (s.now + 2 - t.due) + 8)) n := by
    intro l
    induction l with
    | nil => exact fun n => Nat.le_refl n
    | cons t l ih =>
      intro n
      have hrest := ih (n + (6 * (s.now + 2 - t.due) + 8))
      rw [List.length_cons, List.foldl_cons]
      omega
  have hall := hfold s.tasks 0
  have hnew : s.tally unbegun ≤ s.tasks.length := List.countP_le_length
  rw [rank, length_tasks]
  exact Nat.le_trans (by omega) hall

/-- Tasks that are asked to stop come to wait before time passes. -/
theorem Sound.settle (h : Sound workers s) (hs : s.stopping = true) :
    Calmed s s.settle ∧ s.settle.Idle :=
  h.settleFrom hs (rank_le_effort s)

end Moment

/-! ## To the end -/

section End

variable {s : Scheduler α} {t : Task α} {fuel due workers : Nat}

/-- A task that is asked to stop waits for nothing but the end of its work. -/
theorem Idle.working (h : s.Idle) (hs : s.stopping = true) (ht : t ∈ s.tasks) :
    t.phase = .working ∧ s.now < t.due := by
  have hm := h t ht
  rw [move?_of_stopping hs] at hm
  split at hm
  · cases hm
  · next hp =>
    refine ⟨hp, Nat.lt_of_not_le ?_⟩
    intro hd
    rw [if_pos hd] at hm
    cases hm
  · cases hm

theorem Idle.rank_eq (h : s.Idle) (hs : s.stopping = true) : s.rank = s.tasks.length := by
  have hnew : s.tally unbegun = 0 := by
    rw [tally, List.countP_eq_zero]
    intro t ht
    simp [unbegun, (h.working hs ht).1]
  rw [rank, length_tasks, hnew, Nat.add_zero]

/-- As long as a task is left, there is a time at which one of them will be done. -/
theorem Idle.nextDue?_eq_none (h : s.Idle) (hs : s.stopping = true) (hn : s.nextDue? = none) :
    s.tasks = [] := by
  unfold nextDue? at hn
  rw [List.min?_eq_none_iff, List.map_eq_nil_iff, List.filter_eq_nil_iff] at hn
  rw [List.eq_nil_iff_forall_not_mem]
  intro t ht
  exact hn t ht (decide_eq_true (.inr (h.working hs ht).1))

theorem exists_of_nextDue? (hn : s.nextDue? = some due) : ∃ t ∈ s.tasks, t.due = due := by
  obtain ⟨t, ht, hd⟩ := List.mem_map.1 (List.min?_mem hn)
  exact ⟨t, List.mem_of_mem_filter ht, hd⟩

variable [DecidableEq α]

/-- When the clock comes to the end of a task's work, the task does not wait any longer. -/
theorem Sound.settleAt (h : Sound workers s) (hs : s.stopping = true) (hidle : s.Idle)
    (ht : t ∈ s.tasks) :
    Unaided s (s.settleAt t.due) ∧ (s.settleAt t.due).stopping = true ∧
      (s.settleAt t.due).closed = s.closed ∧ (s.settleAt t.due).Idle ∧
      (s.settleAt t.due).tasks.length < s.tasks.length := by
  obtain ⟨hp, hnow⟩ := hidle.working hs ht
  have hclock : s.step? (.clock t.due) = some { s with now := t.due } := if_pos (Nat.le_of_lt hnow)
  have hclocked := Unaided.of_step hclock nofun
  obtain ⟨hcalmed, hidle'⟩ := (hclocked.sound h).settle hs
  have hs' := hcalmed.stopping.trans hs
  rw [Scheduler.settleAt, hclock, Option.getD_some]
  refine ⟨hclocked.trans hcalmed.unaided, hs', hcalmed.closed, hidle', ?_⟩
  obtain hsame | hless := hcalmed.rank
  · rw [hsame] at hidle'
    exact absurd (hidle'.working hs ht).2 (Nat.lt_irrefl t.due)
  · rw [hidle'.rank_eq hs'] at hless
    exact Nat.lt_of_lt_of_eq hless (hidle.rank_eq hs)

/-- Each due time ends a job, so after as many as there are tasks none is left. -/
theorem Sound.drain (h : Sound workers s) (hs : s.stopping = true) (hidle : s.Idle)
    (hfuel : s.tasks.length ≤ fuel) :
    Unaided s (s.drain fuel) ∧ (s.drain fuel).stopping = true ∧
      (s.drain fuel).closed = s.closed ∧ (s.drain fuel).tasks = [] := by
  induction fuel generalizing s with
  | zero => exact ⟨.refl s, hs, rfl, List.length_eq_zero_iff.1 (Nat.le_zero.1 hfuel)⟩
  | succ fuel ih =>
    unfold Scheduler.drain
    split
    · next hnone => exact ⟨.refl s, hs, rfl, hidle.nextDue?_eq_none hs hnone⟩
    · next due hdue =>
      obtain ⟨t, ht, rfl⟩ := exists_of_nextDue? hdue
      obtain ⟨hu, hs', hclosed, hidle', hless⟩ := h.settleAt hs hidle ht
      obtain ⟨hu', hs'', hclosed', hnil⟩ := ih (hu.sound h) hs' hidle' (by omega)
      exact ⟨hu.trans hu', hs'', hclosed'.trans hclosed, hnil⟩

/-- To shut a scheduler down comes to an end. -/
theorem Sound.shutdown (h : Sound workers s) : Unaided s s.shutdown ∧ s.shutdown.ShutDown := by
  unfold Scheduler.shutdown
  split
  · next hdone =>
    rw [Bool.and_eq_true, Bool.and_eq_true, List.isEmpty_iff] at hdone
    exact ⟨.refl s, ⟨hdone.1.1, hdone.1.2, hdone.2⟩⟩
  · obtain ⟨s₁, hs₁⟩ : ∃ s₁ : Scheduler α, s₁ =
        { s.record (.noted (.stoppingScheduler s.tasks.length)) with stopping := true, closed := true } :=
      ⟨_, rfl⟩
    have hbegun : Unaided s s₁ := by
      rw [hs₁]
      exact ((Unaided.noted s _).trans (.of_step (m := .cancel) rfl nofun)).trans
        (.of_step (m := .close) rfl nofun)
    have hstopping : s₁.stopping = true := by rw [hs₁]
    have hclosed : s₁.closed = true := by rw [hs₁]
    obtain ⟨hcalmed, hidle⟩ := (hbegun.sound h).settle hstopping
    have hu := hbegun.trans hcalmed.unaided
    obtain ⟨hu', hs', hclosed', hnil⟩ :=
      (hu.sound h).drain (hcalmed.stopping.trans hstopping) hidle (Nat.le_refl _)
    simp only
    rw [← hs₁]
    exact ⟨hu.trans hu', hs', hclosed'.trans (hcalmed.closed.trans hclosed), hnil⟩

end End

/-! ## The scheduler -/

/-- In every course of a scheduler no more firings are under way than there are workers, and a job that is
    added with a delay is started no more often than it is added. When a call that shuts the scheduler
    down returns, what was started has been finished, nothing is under way, and a job that is not added
    after that is never started again. Such a call can be made at any moment and returns without help. -/
theorem Course.bounded_once_quiet [DecidableEq α] {workers now : Nat} {moves : List (Move α)}
    {s : Scheduler α} (h : Course (create workers now) moves s) :
    s.running.length ≤ max workers 1 ∧
    (∀ job, (∀ period, .schedule (.every period) job ∉ moves) →
      s.starts job ≤ moves.countP (·.delays job)) ∧
    (s.ShutDown → s.running = [] ∧ (∀ job, s.starts job = s.ends job) ∧
      ∀ later s', Course s later s' → ∀ job, (∀ plan, .schedule plan job ∉ later) →
        s'.starts job = s.starts job ∧ ∀ t ∈ s'.running, t.job ≠ job) ∧
    Unaided s s.shutdown ∧ s.shutdown.ShutDown := by
  have hsound := h.sound sound_create
  refine ⟨hsound.running_le, ?_, ?_, hsound.shutdown⟩
  · intro job hj
    have howed := (h.limited sound_create (limited_of_tasks_eq_nil rfl) hj).owed
    have hzero : (create workers now : Scheduler α).starts job = 0 := rfl
    omega
  · intro hdown
    refine ⟨hdown.running, hdown.balance hsound, ?_⟩
    intro later s' hc job hj
    exact hdown.quiet hsound hc hj

/-! ## An instance -/

/-- A job that fires again and again. -/
def sweep : Job Unit := { name := "sweep", work := 3, action := () }

/-- A job that fires once. -/
def greet : Job Unit := { name := "greet", work := 5, action := () }

/-- Two jobs are due at the same time and want the one worker. The recurring job has it when tasks are asked
    to stop; the delayed one is given it afterwards and fires all the same. -/
def rivalry : List (Move Unit) :=
  [.schedule (.every 2) sweep, .schedule (.after 2) greet, .begin 0, .begin 1, .clock 2, .take 0, .take 1,
    .acquire 0, .acquire 1, .fire 0, .begin 2, .cancel, .close, .stop 0, .clock 5, .finish 2, .fire 1,
    .clock 10, .finish 1]

/-- Where these moves lead. -/
def aftermath : Scheduler Unit where
  now := 10
  free := 1
  nextId := 3
  stopping := true
  closed := true
  history := [(10, .finished greet), (5, .started greet), (5, .noted (.runningOnce "greet")),
    (5, .finished sweep), (2, .noted (.stoppedScheduling "sweep")), (2, .started sweep),
    (0, .noted (.scheduling "sweep" 2))]

theorem course_rivalry : Course (create 0 0) rivalry.reverse aftermath :=
  .ofMoves (by decide) rfl

theorem shutDown_aftermath : aftermath.ShutDown := ⟨rfl, rfl, rfl⟩

/-- The job that fired while tasks were asked to stop has fired once, and nothing is left of the rivalry. -/
theorem bounded_once_quiet_rivalry :
    Course (create 0 0) rivalry.reverse aftermath ∧ aftermath.ShutDown ∧
    aftermath.running.length ≤ 1 ∧ aftermath.starts greet ≤ 1 ∧ aftermath.running = [] ∧
    (∀ job, aftermath.starts job = aftermath.ends job) ∧
    (∀ later s', Course aftermath later s' → ∀ job, (∀ plan, .schedule plan job ∉ later) →
      s'.starts job = aftermath.starts job ∧ ∀ t ∈ s'.running, t.job ≠ job) ∧
    Unaided aftermath aftermath.shutdown ∧ aftermath.shutdown.ShutDown := by
  obtain ⟨hbounded, honce, hquiet, hreturns⟩ := Course.bounded_once_quiet course_rivalry
  obtain ⟨hnone, hbalance, hlater⟩ := hquiet shutDown_aftermath
  have hgreet : ∀ period, .schedule (.every period) greet ∉ rivalry.reverse := by
    intro period hm
    simp [rivalry, greet, sweep] at hm
  exact ⟨course_rivalry, shutDown_aftermath, hbounded, honce greet hgreet, hnone, hbalance, hlater,
    hreturns⟩

end RingOverlay.Scheduler
