import RingOverlay.Proofs.Scheduler.Workers

/-!
# `Scheduler.Owed` — a delayed job fires once

A job that is added with a delay owes one start, which its task pays when it begins its work. No move makes
a start that is not owed, and none owes more but the one that adds the job (`Limited`).

## Contents
- **Debts.** `Plan.once`, `Move.delays`, `pends`, `strays`, `Limited`, and one lemma for each kind of change.
- **Courses.** `Limited.step`, `Course.limited`.
-/

namespace RingOverlay.Scheduler

variable {α : Type}

/-! ## Debts -/

/-- Whether a job is added that fires once. -/
def Plan.once : Plan → Bool
  | .after _ => true
  | _ => false

section Limited

variable [DecidableEq α]

/-- Whether a move adds this job with a delay. -/
def Move.delays (job : Job α) : Move α → Bool
  | .schedule plan job' => plan.once ∧ job' = job
  | _ => false

theorem Move.eq_schedule_of_delays {job : Job α} {m : Move α} (h : m.delays job = true) :
    ∃ plan, m = .schedule plan job := by
  cases m with
  | schedule plan job' =>
    obtain ⟨-, rfl⟩ := of_decide_eq_true h
    exact ⟨plan, rfl⟩
  | _ => cases h

/-- Whether a task may still start this job. -/
def pends (job : Job α) (t : Task α) : Bool := t.phase ≠ .working ∧ t.job = job

/-- Whether a task may start this job more than once. -/
def strays (job : Job α) (t : Task α) : Bool := t.job = job ∧ ¬t.plan.once

/-- Every task of this job starts it once, and no more than `n` starts have been made or are owed. -/
structure Limited (job : Job α) (n : Nat) (s : Scheduler α) : Prop where
  single : s.tally (strays job) = 0
  owed : s.starts job + s.tally (pends job) ≤ n

variable {s s' : Scheduler α} {t t' : Task α} {job j : Job α} {id n workers : Nat}

theorem limited_of_tasks_eq_nil (h : s.tasks = []) : Limited job (s.starts job) s := by
  constructor
  · rw [tally, h]
    rfl
  · rw [tally, h]
    exact Nat.le_refl _

theorem Limited.noted (h : Limited job n s) (x : Note) : Limited job n (s.record (.noted x)) := by
  refine ⟨h.single, ?_⟩
  rw [starts_record_noted]
  exact h.owed

/-- Another job is added. -/
theorem Limited.spawn (h : Limited job n s) (plan : Plan) (hj : j ≠ job) :
    Limited job n (s.spawn plan j) := by
  constructor
  · rw [tally_spawn, h.single]
    simp [strays, hj]
  · rw [tally_spawn, show pends job { id := s.nextId, job := j, plan } = false by simp [pends, hj]]
    exact h.owed

/-- The job is added once more. -/
theorem Limited.spawn_self (h : Limited job n s) {plan : Plan} (hp : plan.once = true) :
    Limited job (n + 1) (s.spawn plan job) := by
  constructor
  · rw [tally_spawn, h.single]
    simp [strays, hp]
  · rw [tally_spawn, ← Nat.add_assoc]
    exact Nat.add_le_add h.owed (Bool.toNat_le _)

/-- A task goes on with its job. -/
theorem Limited.put (h : Limited job n s) (hn : s.Numbered) (hf : s.find? t'.id = some t)
    (hj : t'.job = t.job) (hplan : t'.plan = t.plan) (hp : t.phase ≠ .working) :
    Limited job n (s.put t') := by
  constructor
  · have hput := hn.tally_put (p := strays job) hf
    rw [show strays job t' = strays job t by rw [strays, strays, hj, hplan], h.single] at hput
    omega
  · have hput := hn.tally_put (p := pends job) hf
    have hle : (pends job t').toNat ≤ (pends job t).toNat := by
      by_cases hjob : t.job = job
      · rw [show pends job t = true by simp [pends, hp, hjob]]
        exact Bool.toNat_le _
      · rw [show pends job t' = false by simp [pends, hj, hjob]]
        exact Nat.zero_le _
    have howed := h.owed
    show s.starts job + (s.put t').tally (pends job) ≤ n
    omega

/-- A start is made that was owed. -/
theorem Limited.beginWork (h : Limited job n s) (hn : s.Numbered) (hf : s.find? t.id = some t)
    (hp : t.phase ≠ .working) : Limited job n (s.beginWork t) := by
  obtain ⟨t', hid, hp', hj, hplan, he⟩ := beginWork_eq s t
  rw [← hid] at hf
  rw [he]
  refine ⟨(h.put hn hf hj hplan hp).single, ?_⟩
  have hput := hn.tally_put (p := pends job) hf
  rw [show pends job t = decide (t.job = job) by simp [pends, hp],
    show pends job t' = false by simp [pends, hp'], Bool.toNat_false] at hput
  have howed := h.owed
  rw [starts_record_started]
  show s.starts job + _ + (s.put t').tally (pends job) ≤ n
  omega

theorem Limited.erase (h : Limited job n s) (hn : s.Numbered) (hf : s.find? id = some t) :
    Limited job n (s.erase id) := by
  constructor
  · have herase := hn.tally_erase (p := strays job) hf
    rw [h.single] at herase
    omega
  · have herase := hn.tally_erase (p := pends job) hf
    have howed := h.owed
    show s.starts job + (s.erase id).tally (pends job) ≤ n
    omega

theorem Limited.release (h : Limited job n s) (hn : s.Numbered) : Limited job n s.release := by
  constructor
  · rw [hn.tally_release fun t _ => rfl]
    exact h.single
  · rw [hn.tally_release fun t hq => by simp [pends, hq], starts, history_release]
    exact h.owed

/-- A task that fires again and again is not one of this job. -/
theorem Limited.job_ne (h : Limited job n s) (hf : s.find? id = some t) (hp : t.plan.once = false) :
    t.job ≠ job := by
  intro hj
  have hpos := List.countP_pos_iff.2 ⟨t, mem_of_find? hf, show strays job t = true by simp [strays, hj, hp]⟩
  have hzero : s.tasks.countP (strays job) = 0 := h.single
  omega

/-! ## Courses -/

/-- A move that adds no job makes no start that is not owed. -/
theorem Limited.step (h : Limited job n s) (hn : s.Numbered) {m : Move α}
    (hm : ∀ plan, m ≠ .schedule plan job) (hs : s.step? m = some s') : Limited job n s' := by
  cases stepped hs with
  | schedule plan j =>
    refine h.spawn plan ?_
    rintro rfl
    exact hm plan rfl
  | @begin t hf hp =>
    have hwork : t.phase ≠ .working := hp.symm ▸ nofun
    unfold begin
    split
    · simp only
      split
      · exact (h.noted _).erase (hn.record _) hf
      · exact (h.noted _).put (hn.record _) hf rfl rfl hwork
    · exact h.put hn hf rfl rfl hwork
    · exact h.beginWork hn hf hwork
  | @take t hf hp _ =>
    unfold take
    split <;> exact h.put hn hf rfl rfl (hp.symm ▸ nofun)
  | @acquire t hf hp =>
    have hwork : t.phase ≠ .working := hp.symm ▸ nofun
    unfold acquire
    split
    · have hput := h.put hn (show s.find? ({ t with phase := .granted } : Task α).id = some t from hf)
        rfl rfl hwork
      exact ⟨hput.single, hput.owed⟩
    · exact h.put hn hf rfl rfl hwork
  | @fire t hf hp =>
    have hwork : t.phase ≠ .working := hp.symm ▸ nofun
    unfold fire
    split
    · next period hplan =>
      -- the firing that is added is one of another job
      have hj := h.job_ne hf (by rw [hplan]; rfl)
      exact (h.spawn .now hj).put (hn.spawn .now t.job) (find?_spawn .now t.job hf) rfl rfl hwork
    · exact (h.noted _).beginWork (hn.record _) hf hwork
  | @finish t hf _ _ =>
    have hn₁ := hn.record (.finished t.job)
    have h₁ : Limited job n (s.record (.finished t.job)) := by
      refine ⟨h.single, ?_⟩
      rw [starts_record_finished]
      exact h.owed
    exact (h₁.erase hn₁ hf).release (hn₁.erase t.id)
  | @stop t hf _ hp =>
    obtain ⟨s₁, ⟨h₁, hn₁, hf₁⟩, he⟩ := stop_eq
      (P := fun s₁ => Limited job n s₁ ∧ s₁.Numbered ∧ s₁.find? t.id = some t)
      ⟨h, hn, hf⟩ (fun x => ⟨h.noted x, hn.record _, hf⟩) t
    rw [he]
    split
    · exact (h₁.erase hn₁ hf₁).release (hn₁.erase t.id)
    · exact h₁.erase hn₁ hf₁
  | clock _ => exact ⟨h.single, h.owed⟩
  | cancel => exact ⟨h.single, h.owed⟩
  | close => exact ⟨h.single, h.owed⟩

/-- A job that is only ever added with a delay is started no more often than it is added. -/
theorem Course.limited {moves : List (Move α)} (h : Course s moves s') (hs : Sound workers s)
    (hl : Limited job n s) (hj : ∀ period, .schedule (.every period) job ∉ moves) :
    Limited job (n + moves.countP (·.delays job)) s' := by
  induction h with
  | refl => exact hl
  | noted x _ ih => exact (ih hj).noted x
  | @move moves s₁ s₂ m hm hstep hcourse ih =>
    have hl₁ := ih fun period hmem => hj period (List.mem_cons_of_mem m hmem)
    by_cases hadd : ∃ plan, m = .schedule plan job
    · obtain ⟨plan, rfl⟩ := hadd
      obtain rfl : s₁.spawn plan job = s₂ := Option.some_inj.1 hstep
      have honce : plan.once = true := by
        cases plan with
        | every period => exact absurd List.mem_cons_self (hj period)
        | after delay => rfl
        | now => cases hm
      rw [List.countP_cons_of_pos (by simp [Move.delays, honce]), ← Nat.add_assoc]
      exact hl₁.spawn_self honce
    · rw [List.countP_cons_of_neg (mt Move.eq_schedule_of_delays hadd)]
      exact hl₁.step (hcourse.sound hs).toNumbered (not_exists.1 hadd) hstep

end Limited

end RingOverlay.Scheduler
