import RingOverlay.Proofs.Scheduler.Course

/-!
# `Scheduler.Workers` — no more firings than workers

A worker is free, or it is kept for one task: for the task that it was given to, or for the firing that it
was handed on to. So the number of workers never changes, and what has been started and not finished is
what tasks are at work on (`Sound`).

## Contents
- **Workers.** `holds`, `Numbered.pool_release`.
- **The account.** `worksOn`, `Sound`, and one lemma for each kind of change.
- **Courses.** `Sound.step`, `Course.sound`.
-/

namespace RingOverlay.Scheduler

variable {α : Type}

/-! ## Workers -/

/-- Whether a worker is kept for a task: it has been given one, or it is the firing of one that was. -/
def holds (t : Task α) : Bool :=
  match t.phase with
  | .granted | .working => true
  | .fresh => t.plan = .now
  | _ => false

/-- A worker that is given back is free or kept for the next one in line. -/
theorem Numbered.pool_release {s : Scheduler α} (h : s.Numbered) :
    s.release.free + s.release.tally holds = s.free + s.tally holds + 1 := by
  obtain ⟨t, hf, hq, he⟩ | he := h.release_cases
  · have hput := h.tally_put (p := holds)
      (show s.find? ({ t with phase := .granted } : Task α).id = some t from hf)
    have hold : holds t = false := by rw [holds, hq]
    have hnew : holds { t with phase := .granted } = true := rfl
    rw [hold, hnew, Bool.toNat_true, Bool.toNat_false] at hput
    rw [he]
    show s.free + (s.put { t with phase := .granted }).tally holds = _
    omega
  · rw [he]
    show s.free + 1 + s.tally holds = _
    omega

/-! ## The account -/

section Sound

variable [DecidableEq α]

/-- Whether a task does this job at the moment. -/
def worksOn (job : Job α) (t : Task α) : Bool := t.phase = .working ∧ t.job = job

/-- Each of the workers is free or kept for a task, and what was started has been finished or is being
    done. -/
structure Sound (workers : Nat) (s : Scheduler α) : Prop extends Numbered s where
  pool : s.free + s.tally holds = workers
  balance : ∀ job, s.starts job = s.ends job + s.tally (worksOn job)

variable {workers now : Nat} {s s' : Scheduler α} {t t' : Task α} {job : Job α} {id : Nat}

theorem worksOn_eq_false (h : t.phase ≠ .working) : worksOn job t = false := by simp [worksOn, h]

theorem sound_create : Sound (max workers 1) (create workers now : Scheduler α) where
  nodup := List.nodup_nil
  lt _ ht := absurd ht List.not_mem_nil
  pool := rfl
  balance _ := rfl

/-- No more tasks are at work than there are workers. -/
theorem Sound.running_le (h : Sound workers s) : s.running.length ≤ workers := by
  have hle : s.tally (·.phase = .working) ≤ s.tally holds := by
    apply List.countP_mono_left
    intro t _ hp
    rw [holds, of_decide_eq_true hp]
  have hpool := h.pool
  rw [running, ← List.countP_eq_length_filter, ← tally]
  omega

/-- A note changes nothing else. -/
theorem Sound.noted (h : Sound workers s) (n : Note) : Sound workers (s.record (.noted n)) where
  toNumbered := h.toNumbered.record _
  pool := h.pool
  balance job := by
    rw [starts_record_noted, ends_record_noted]
    exact h.balance job

/-- A job is added. -/
theorem Sound.spawn (h : Sound workers s) {plan : Plan} (hp : plan ≠ .now) (job : Job α) :
    Sound workers (s.spawn plan job) where
  toNumbered := h.toNumbered.spawn plan job
  pool := by
    have hnew : holds { id := s.nextId, job, plan } = false := decide_eq_false hp
    rw [tally_spawn, hnew]
    exact h.pool
  balance j := by
    rw [tally_spawn]
    exact h.balance j

/-- A task is replaced by another stage of itself. What changes with it is accounted for. -/
theorem Sound.replace (h : Sound workers s) (hf : s.find? t'.id = some t)
    (ht : s'.tasks = (s.put t').tasks) (hn : s'.nextId = s.nextId)
    (hpool : s'.free + (holds t').toNat = s.free + (holds t).toNat)
    (hbalance : ∀ j, s'.starts j + (worksOn j t).toNat + s.ends j
      = s.starts j + (worksOn j t').toNat + s'.ends j) : Sound workers s' := by
  have htally : ∀ p, s'.tally p + (p t).toNat = s.tally p + (p t').toNat := by
    intro p
    rw [show s'.tally p = (s.put t').tally p by rw [tally, ht, tally]]
    exact h.tally_put hf
  constructor
  · exact (h.toNumbered.put hf).congr ht hn
  · have hput := htally holds
    have hold := h.pool
    omega
  · intro j
    have hput := htally (worksOn j)
    have hold := h.balance j
    have hnew := hbalance j
    omega

/-- A task gets on without a worker, or keeps the one that it has. -/
theorem Sound.put (h : Sound workers s) (hf : s.find? t'.id = some t) (hh : holds t' = holds t)
    (hp : t.phase ≠ .working) (hp' : t'.phase ≠ .working) : Sound workers (s.put t') := by
  refine h.replace hf rfl rfl (by rw [hh]; rfl) ?_
  intro j
  rw [worksOn_eq_false hp, worksOn_eq_false hp']
  rfl

/-- A free worker is given to a task. -/
theorem Sound.grant (h : Sound workers s) (hf : s.find? t'.id = some t) (hp : t.phase = .wanting)
    (hp' : t'.phase = .granted) (hfree : 0 < s.free) :
    Sound workers { s.put t' with free := s.free - 1 } := by
  have hold : holds t = false := by rw [holds, hp]
  have hnew : holds t' = true := by rw [holds, hp']
  refine h.replace hf rfl rfl ?_ ?_
  · rw [hold, hnew, Bool.toNat_true, Bool.toNat_false]
    exact Nat.sub_add_cancel hfree
  · intro j
    rw [worksOn_eq_false (hp.symm ▸ nofun), worksOn_eq_false (hp'.symm ▸ nofun)]
    rfl

/-- A task with a worker begins its work. -/
theorem Sound.beginWork (h : Sound workers s) (hf : s.find? t.id = some t) (hh : holds t = true)
    (hp : t.phase ≠ .working) : Sound workers (s.beginWork t) := by
  obtain ⟨t', hid, hp', hj, -, he⟩ := beginWork_eq s t
  have hnew : holds t' = true := by rw [holds, hp']
  rw [he]
  refine h.replace (hid ▸ hf) rfl rfl (by rw [hh, hnew]; rfl) ?_
  intro j
  rw [starts_record_started, ends_record_started, worksOn_eq_false hp,
    show worksOn j t' = decide (t.job = j) by simp [worksOn, hp', hj]]
  show s.starts j + _ + _ + s.ends j = s.starts j + _ + s.ends j
  rw [Bool.toNat_false, Nat.add_zero]

/-- A task that has no worker ends. -/
theorem Sound.erase (h : Sound workers s) (hf : s.find? id = some t) (hh : holds t = false)
    (hp : t.phase ≠ .working) : Sound workers (s.erase id) where
  toNumbered := h.toNumbered.erase id
  pool := by
    have herase := h.tally_erase (p := holds) hf
    rw [hh, Bool.toNat_false] at herase
    have hpool := h.pool
    show s.free + (s.erase id).tally holds = workers
    omega
  balance job := by
    have herase := h.tally_erase (p := worksOn job) hf
    rw [worksOn_eq_false hp, Bool.toNat_false] at herase
    have hbalance := h.balance job
    show s.starts job = s.ends job + (s.erase id).tally (worksOn job)
    omega

/-- The task of a recurring job hands its worker on to a firing. -/
theorem Sound.handOn (h : Sound workers s) (hf : s.find? t'.id = some t) (hp : t.phase = .granted)
    (hp' : t'.phase = .waiting) : Sound workers ((s.spawn .now job).put t') := by
  -- between the two steps the worker would be counted twice, so they are taken together
  have hnum := h.toNumbered.spawn .now job
  have hf' := find?_spawn .now job hf
  constructor
  · exact hnum.put hf'
  · have hput := hnum.tally_put (p := holds) hf'
    have hnew : holds { id := s.nextId, job, plan := .now } = true := rfl
    simp only [tally_spawn, hnew, show holds t = true by rw [holds, hp],
      show holds t' = false by rw [holds, hp'], Bool.toNat_true, Bool.toNat_false] at hput
    have hpool := h.pool
    show s.free + ((s.spawn .now job).put t').tally holds = workers
    omega
  · intro j
    have hput := hnum.tally_put (p := worksOn j) hf'
    have hnew : worksOn j { id := s.nextId, job, plan := .now } = false := rfl
    have hwork : t.phase ≠ .working := hp.symm ▸ nofun
    have hwork' : t'.phase ≠ .working := hp'.symm ▸ nofun
    simp only [tally_spawn, hnew, worksOn_eq_false hwork, worksOn_eq_false hwork',
      Bool.toNat_false] at hput
    have hbalance := h.balance j
    show s.starts j = s.ends j + ((s.spawn .now job).put t').tally (worksOn j)
    omega

/-- A task that has a worker ends and gives it back. What it did until now has to be accounted for. -/
theorem Numbered.sound_giveBack (h : Numbered s) (hf : s.find? id = some t) (hh : holds t = true)
    (hpool : s.free + s.tally holds = workers)
    (hbalance : ∀ j, s.starts j + (worksOn j t).toNat = s.ends j + s.tally (worksOn j)) :
    Sound workers (s.erase id).release := by
  have hnum := h.erase id
  constructor
  · exact hnum.release
  · have herase := h.tally_erase (p := holds) hf
    rw [hh, Bool.toNat_true] at herase
    rw [hnum.pool_release]
    show s.free + (s.erase id).tally holds + 1 = workers
    omega
  · intro j
    have herase := h.tally_erase (p := worksOn j) hf
    have hj := hbalance j
    rw [hnum.tally_release fun t hq => by simp [worksOn, hq], starts, ends, history_release]
    show s.starts j = s.ends j + (s.erase id).tally (worksOn j)
    omega

/-! ## Courses -/

/-- One move keeps the number of workers and the account of what has been started. -/
theorem Sound.step (h : Sound workers s) {m : Move α} (hm : m.offered = true)
    (hs : s.step? m = some s') : Sound workers s' := by
  cases stepped hs with
  | schedule plan job =>
    refine h.spawn ?_ job
    rintro rfl
    cases hm
  | @begin t hf hp =>
    have hwork : t.phase ≠ .working := hp.symm ▸ nofun
    unfold begin
    split
    · next period hplan =>
      have hh : holds t = false := by simp [holds, hp, hplan]
      simp only
      split
      · exact (h.noted _).erase hf hh hwork
      · exact (h.noted _).put hf hh.symm hwork nofun
    · next delay hplan =>
      have hh : holds t = false := by simp [holds, hp, hplan]
      exact h.put hf hh.symm hwork nofun
    · next hplan =>
      exact h.beginWork hf (by simp [holds, hp, hplan]) hwork
  | @take t hf hp _ =>
    have hh : holds t = false := by rw [holds, hp]
    unfold take
    split <;> exact h.put hf hh.symm (hp.symm ▸ nofun) nofun
  | @acquire t hf hp =>
    unfold acquire
    split
    · next hfree => exact h.grant hf hp rfl hfree
    · exact h.put hf (show false = holds t by rw [holds, hp]) (hp.symm ▸ nofun) nofun
  | @fire t hf hp =>
    unfold fire
    split
    · exact h.handOn hf hp rfl
    · exact (h.noted _).beginWork hf (by rw [holds, hp]) (hp.symm ▸ nofun)
  | @finish t hf hp _ =>
    refine (h.toNumbered.record _).sound_giveBack hf (by rw [holds, hp]) h.pool ?_
    intro j
    have hbalance := h.balance j
    rw [starts_record_finished, ends_record_finished,
      show worksOn j t = decide (t.job = j) by simp [worksOn, hp]]
    show _ = s.ends j + _ + s.tally (worksOn j)
    omega
  | @stop t hf _ hp =>
    obtain ⟨s₁, ⟨h₁, hf₁⟩, he⟩ := stop_eq (P := fun s₁ => Sound workers s₁ ∧ s₁.find? t.id = some t)
      ⟨h, hf⟩ (fun n => ⟨h.noted n, hf⟩) t
    have hwork : t.phase ≠ .working := by
      intro hp'
      rw [hp'] at hp
      cases hp
    rw [he]
    split
    · next hgranted =>
      refine h₁.toNumbered.sound_giveBack hf₁ (by rw [holds, hgranted]) h₁.pool ?_
      intro j
      rw [worksOn_eq_false hwork]
      exact h₁.balance j
    · next hgranted =>
      have hh : holds t = false := by
        cases hphase : t.phase <;> simp_all [holds, Phase.heedsStop]
      exact h₁.erase hf₁ hh hwork
  | clock _ => exact ⟨h.toNumbered.congr rfl rfl, h.pool, h.balance⟩
  | cancel => exact ⟨h.toNumbered.congr rfl rfl, h.pool, h.balance⟩
  | close => exact ⟨h.toNumbered.congr rfl rfl, h.pool, h.balance⟩

theorem Course.sound {moves : List (Move α)} (h : Course s moves s') (hs : Sound workers s) :
    Sound workers s' := by
  induction h with
  | refl => exact hs
  | move hm hstep _ ih => exact ih.step hm hstep
  | noted n _ ih => exact ih.noted n

end Sound

end RingOverlay.Scheduler
