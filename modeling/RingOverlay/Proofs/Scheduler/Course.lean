import RingOverlay.Proofs.Scheduler.Tally

/-!
# `Scheduler.Course` — what can happen to a scheduler

In a course moves follow one another in any order in which they can be made, so that of two tasks that
are ready either may be first, and a task that is asked to stop may still take its tick.

## Contents
- **Courses.** `Move.offered`, `Course`, and `Course.ofMoves` for moves that are given.
- **One move.** `Stepped`, what a move can be; `stepped`; `beginWork_eq`, `stop_eq`.
- **History.** `history_step`, `Course.history`: what has happened is not forgotten.
-/

namespace RingOverlay.Scheduler

variable {α : Type}

/-! ## Courses -/

/-- Whether a move can come from outside. Jobs are added as recurring or delayed; a firing is added only
    by the task of its job. -/
def Move.offered : Move α → Bool
  | .schedule .now _ => false
  | _ => true

/-- The state `s` leads to another one by these moves, the latest first. In between anything may be
    noted. -/
inductive Course (s : Scheduler α) : List (Move α) → Scheduler α → Prop where
  | refl : Course s [] s
  | move {moves : List (Move α)} {s' s'' : Scheduler α} {m : Move α} (hm : m.offered = true)
      (hs : s'.step? m = some s'') : Course s moves s' → Course s (m :: moves) s''
  | noted {moves : List (Move α)} {s' : Scheduler α} (n : Note) :
      Course s moves s' → Course s moves (s'.record (.noted n))

section Course

variable {s s' s'' : Scheduler α} {moves moves' : List (Move α)} {m : Move α}

theorem Course.trans (h : Course s moves s') (h' : Course s' moves' s'') :
    Course s (moves' ++ moves) s'' := by
  induction h' with
  | refl => exact h
  | move hm hs _ ih => exact .move hm hs ih
  | noted n _ ih => exact .noted n ih

/-- Moves that can be made one after another. -/
theorem Course.ofMoves (ho : ∀ m ∈ moves, m.offered = true) (hs : moves.foldlM step? s = some s') :
    Course s moves.reverse s' := by
  induction moves generalizing s with
  | nil =>
    obtain rfl : s = s' := Option.some_inj.1 hs
    exact .refl
  | cons m moves ih =>
    obtain ⟨hm, ho⟩ := List.forall_mem_cons.1 ho
    obtain ⟨s₁, hs₁, hs⟩ := Option.bind_eq_some_iff.1 hs
    rw [List.reverse_cons]
    exact (Course.move hm hs₁ .refl).trans (ih ho hs)

end Course

/-! ## One move -/

/-- What a move can be, and where it leads. -/
inductive Stepped (s : Scheduler α) : Move α → Scheduler α → Prop where
  | schedule (plan : Plan) (job : Job α) : Stepped s (.schedule plan job) (s.spawn plan job)
  | begin {t : Task α} (hf : s.find? t.id = some t) (hp : t.phase = .fresh) :
      Stepped s (.begin t.id) (s.begin t)
  | take {t : Task α} (hf : s.find? t.id = some t) (hp : t.phase = .waiting) (hd : t.due ≤ s.now) :
      Stepped s (.take t.id) (s.take t)
  | acquire {t : Task α} (hf : s.find? t.id = some t) (hp : t.phase = .wanting) :
      Stepped s (.acquire t.id) (s.acquire t)
  | fire {t : Task α} (hf : s.find? t.id = some t) (hp : t.phase = .granted) :
      Stepped s (.fire t.id) (s.fire t)
  | finish {t : Task α} (hf : s.find? t.id = some t) (hp : t.phase = .working) (hd : t.due ≤ s.now) :
      Stepped s (.finish t.id) (s.finish t)
  | stop {t : Task α} (hf : s.find? t.id = some t) (hs : s.stopping = true)
      (hp : t.phase.heedsStop = true) : Stepped s (.stop t.id) (s.stop t)
  | clock {now : Nat} (h : s.now ≤ now) : Stepped s (.clock now) { s with now }
  | cancel : Stepped s .cancel { s with stopping := true }
  | close : Stepped s .close { s with closed := true }

section Stepped

variable {s s' : Scheduler α} {m : Move α} {id : Nat} {allowed : Task α → Bool}
  {step : Scheduler α → Task α → Scheduler α}

theorem onTask?_eq_some (h : s.onTask? id allowed step = some s') :
    ∃ t, s.find? id = some t ∧ t.id = id ∧ allowed t = true ∧ step s t = s' := by
  unfold onTask? at h
  cases hf : s.find? id with
  | none =>
    rw [hf] at h
    cases h
  | some t =>
    rw [hf] at h
    obtain ⟨ha, hs⟩ := Option.ite_none_right_eq_some.1 h
    exact ⟨t, rfl, id_of_find? hf, ha, Option.some_inj.1 hs⟩

theorem stepped (h : s.step? m = some s') : Stepped s m s' := by
  cases m with
  | schedule plan job =>
    obtain rfl := Option.some_inj.1 h
    exact .schedule plan job
  | begin id =>
    obtain ⟨t, hf, rfl, ha, rfl⟩ := onTask?_eq_some h
    exact .begin hf (of_decide_eq_true ha)
  | take id =>
    obtain ⟨t, hf, rfl, ha, rfl⟩ := onTask?_eq_some h
    obtain ⟨hp, hd⟩ := of_decide_eq_true ha
    exact .take hf hp hd
  | acquire id =>
    obtain ⟨t, hf, rfl, ha, rfl⟩ := onTask?_eq_some h
    exact .acquire hf (of_decide_eq_true ha)
  | fire id =>
    obtain ⟨t, hf, rfl, ha, rfl⟩ := onTask?_eq_some h
    exact .fire hf (of_decide_eq_true ha)
  | finish id =>
    obtain ⟨t, hf, rfl, ha, rfl⟩ := onTask?_eq_some h
    obtain ⟨hp, hd⟩ := of_decide_eq_true ha
    exact .finish hf hp hd
  | stop id =>
    obtain ⟨t, hf, rfl, ha, rfl⟩ := onTask?_eq_some h
    obtain ⟨hs, hp⟩ := of_decide_eq_true ha
    exact .stop hf hs hp
  | clock now =>
    obtain ⟨hn, hs⟩ := Option.ite_none_right_eq_some.1 h
    obtain rfl := Option.some_inj.1 hs
    exact .clock hn
  | cancel =>
    obtain rfl := Option.some_inj.1 h
    exact .cancel
  | close =>
    obtain rfl := Option.some_inj.1 h
    exact .close

end Stepped

/-- A task that begins its work is at work from then on. -/
theorem beginWork_eq (s : Scheduler α) (t : Task α) : ∃ t' : Task α, t'.id = t.id ∧
    t'.phase = .working ∧ t'.job = t.job ∧ t'.plan = t.plan ∧
    s.beginWork t = (s.put t').record (.started t.job) :=
  ⟨{ t with phase := .working, due := s.now + waitFor t.job.work }, rfl, rfl, rfl, rfl, rfl⟩

/-- A task that stops may leave a note, and gives back the worker that it was given. -/
theorem stop_eq {s : Scheduler α} {P : Scheduler α → Prop} (h : P s)
    (hn : ∀ n, P (s.record (.noted n))) (t : Task α) : ∃ s₁, P s₁ ∧
      s.stop t = if t.phase = .granted then (s₁.erase t.id).release else s₁.erase t.id := by
  unfold stop
  split
  · exact ⟨_, hn _, rfl⟩
  · exact ⟨_, h, rfl⟩

/-! ## History -/

/-- A move forgets nothing that has happened. -/
theorem history_step {s s' : Scheduler α} {m : Move α} (h : s.step? m = some s') :
    s.history <:+ s'.history := by
  cases stepped h with
  | @begin t _ _ =>
    unfold begin
    split
    · simp only
      split
      · exact List.suffix_cons _ _
      · exact List.suffix_cons _ _
    · exact List.suffix_rfl
    · exact List.suffix_cons _ _
  | @take t _ _ _ =>
    unfold take
    split <;> exact List.suffix_rfl
  | @acquire t _ _ =>
    unfold acquire
    split <;> exact List.suffix_rfl
  | @fire t _ _ =>
    unfold fire
    split
    · exact List.suffix_rfl
    · exact (List.suffix_cons _ _).trans (List.suffix_cons _ _)
  | @finish t _ _ _ =>
    rw [finish, history_release]
    exact List.suffix_cons _ _
  | @stop t _ _ _ =>
    obtain ⟨s₁, h₁, he⟩ := stop_eq (P := fun s₁ => s.history <:+ s₁.history) List.suffix_rfl
      (fun n => List.suffix_cons _ _) t
    rw [he]
    split
    · rw [history_release]
      exact h₁
    · exact h₁
  | schedule _ _ | clock _ | cancel | close => exact List.suffix_rfl

theorem Course.history {s s' : Scheduler α} {moves : List (Move α)} (h : Course s moves s') :
    s.history <:+ s'.history := by
  induction h with
  | refl => exact List.suffix_rfl
  | move _ hstep _ ih => exact ih.trans (history_step hstep)
  | noted n _ ih => exact ih.trans (List.suffix_cons _ _)

end RingOverlay.Scheduler
