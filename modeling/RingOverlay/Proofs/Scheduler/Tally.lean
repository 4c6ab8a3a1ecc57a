import Mathlib.Data.List.Nodup
import RingOverlay.Scheduler.Basic

/-!
# `Scheduler.Tally` — counting tasks

What is claimed of a scheduler is claimed of numbers: of workers in use, of firings begun and ended. All
of them are read off the tasks and the history, so each small step has one equation for the number of
tasks that pass an arbitrary test. Tasks have numbers of their own (`Numbered`), which is why a step that
is of one number changes one task.

## Contents
- **Views.** `tally`, `starts`, `ends`.
- **Numbers.** `Numbered`, and who is found by a number.
- **Small steps.** What `put`, `erase`, `spawn` and `release` do to each view and to the numbers.
-/

namespace RingOverlay.Scheduler

variable {α : Type}

/-! ## Views -/

/-- The number of tasks that pass a test. -/
def tally (s : Scheduler α) (p : Task α → Bool) : Nat := s.tasks.countP p

section History

variable [DecidableEq α]

/-- How often a job has been started. -/
def starts (s : Scheduler α) (job : Job α) : Nat := s.history.countP (·.2 = .started job)

/-- How often a job has been finished. -/
def ends (s : Scheduler α) (job : Job α) : Nat := s.history.countP (·.2 = .finished job)

variable (s : Scheduler α) (job job' : Job α)

@[simp] theorem starts_record_noted (n : Note) : (s.record (.noted n)).starts job = s.starts job := by
  simp [starts, record]

@[simp] theorem ends_record_noted (n : Note) : (s.record (.noted n)).ends job = s.ends job := by
  simp [ends, record]

theorem starts_record_started : (s.record (.started job')).starts job
    = s.starts job + (decide (job' = job)).toNat := by
  by_cases h : job' = job <;> simp [starts, record, h]

@[simp] theorem ends_record_started : (s.record (.started job')).ends job = s.ends job := by
  simp [ends, record]

@[simp] theorem starts_record_finished : (s.record (.finished job')).starts job = s.starts job := by
  simp [starts, record]

theorem ends_record_finished : (s.record (.finished job')).ends job
    = s.ends job + (decide (job' = job)).toNat := by
  by_cases h : job' = job <;> simp [ends, record, h]

end History

variable {s : Scheduler α} {t t' : Task α} {p : Task α → Bool} {id : Nat}

/-! ## Numbers -/

/-- Each task has a number of its own, and the next task will have a new one. -/
structure Numbered (s : Scheduler α) : Prop where
  nodup : (s.tasks.map (·.id)).Nodup
  lt : ∀ t ∈ s.tasks, t.id < s.nextId

theorem mem_of_find? (h : s.find? id = some t) : t ∈ s.tasks := List.mem_of_find?_eq_some h

theorem id_of_find? (h : s.find? id = some t) : t.id = id := by simpa using List.find?_some h

/-- A task is found by its number. -/
theorem Numbered.find? (h : s.Numbered) (ht : t ∈ s.tasks) : s.find? t.id = some t := by
  cases hf : s.find? t.id with
  | none => exact absurd rfl (of_decide_eq_false (eq_false_of_ne_true (List.find?_eq_none.1 hf t ht)))
  | some u =>
    have hu := List.inj_on_of_nodup_map h.nodup (mem_of_find? hf) ht (id_of_find? hf)
    rw [hu]

/-- Taking out the task of a number takes one task out. -/
theorem countP_filter_add {l : List (Task α)} (hl : (l.map (·.id)).Nodup) (ht : t ∈ l) :
    (l.filter (·.id ≠ t.id)).countP p + (p t).toNat = l.countP p := by
  induction l with
  | nil => cases ht
  | cons a l ih =>
    rw [List.map_cons, List.nodup_cons] at hl
    by_cases ha : a.id = t.id
    · have hrest : l.filter (·.id ≠ t.id) = l := by
        rw [List.filter_eq_self]
        intro b hb
        rw [decide_eq_true_iff, ← ha]
        intro he
        exact hl.1 (he ▸ List.mem_map_of_mem hb)
      have hat : t = a := by
        rcases List.mem_cons.1 ht with rfl | ht
        · rfl
        · exact absurd (ha ▸ List.mem_map_of_mem ht) hl.1
      subst hat
      rw [List.filter_cons_of_neg (by simp), hrest, List.countP_cons]
      cases p t <;> rfl
    · have ht' : t ∈ l := by
        rcases List.mem_cons.1 ht with rfl | ht
        · exact absurd rfl ha
        · exact ht
      rw [List.filter_cons_of_pos (by simpa using ha), List.countP_cons, List.countP_cons,
        ← ih hl.2 ht']
      omega

/-! ## Small steps -/

/-! ### The numbers -/

theorem Numbered.erase (h : s.Numbered) (id : Nat) : (s.erase id).Numbered where
  nodup := h.nodup.sublist (List.filter_sublist.map _)
  lt t ht := h.lt t (List.mem_of_mem_filter ht)

theorem Numbered.put (h : s.Numbered) (hf : s.find? t'.id = some t) : (s.put t').Numbered where
  nodup := by
    have hnew : t'.id ∉ (s.tasks.filter (·.id ≠ t'.id)).map (·.id) := by
      rw [List.mem_map]
      rintro ⟨u, hu, he⟩
      exact of_decide_eq_true (List.mem_filter.1 hu).2 he
    rw [Scheduler.put, List.map_append]
    exact (h.erase t'.id).nodup.append (List.nodup_singleton _)
      (List.disjoint_singleton.2 hnew)
  lt u hu := by
    rcases List.mem_append.1 hu with hu | hu
    · exact h.lt u (List.mem_of_mem_filter hu)
    · rw [List.mem_singleton.1 hu, ← id_of_find? hf]
      exact h.lt t (mem_of_find? hf)

theorem Numbered.spawn (h : s.Numbered) (plan : Plan) (job : Job α) : (s.spawn plan job).Numbered where
  nodup := by
    have hnew : s.nextId ∉ s.tasks.map (·.id) := by
      rw [List.mem_map]
      rintro ⟨u, hu, he⟩
      exact absurd he (Nat.ne_of_lt (h.lt u hu))
    rw [Scheduler.spawn, List.map_append]
    exact h.nodup.append (List.nodup_singleton _) (List.disjoint_singleton.2 hnew)
  lt u hu := by
    rcases List.mem_append.1 hu with hu | hu
    · exact Nat.lt_succ_of_lt (h.lt u hu)
    · rw [List.mem_singleton.1 hu]
      exact Nat.lt_succ_self _

theorem Numbered.record (h : s.Numbered) (x : Happening α) : (s.record x).Numbered := ⟨h.nodup, h.lt⟩

/-- A step that changes no task. -/
theorem Numbered.congr (h : s.Numbered) {s' : Scheduler α} (ht : s'.tasks = s.tasks)
    (hn : s'.nextId = s.nextId) : s'.Numbered :=
  ⟨ht ▸ h.nodup, fun t hm => hn ▸ h.lt t (ht ▸ hm)⟩

/-- A worker that is given back goes to a task in line or becomes free. -/
theorem Numbered.release_cases (h : s.Numbered) :
    (∃ t, s.find? t.id = some t ∧ t.phase = .queued ∧ s.release = s.put { t with phase := .granted }) ∨
      s.release = { s with free := s.free + 1 } := by
  unfold release
  split
  · next t ht =>
    have hq : t.phase = .queued := by simpa using List.find?_some ht
    exact .inl ⟨t, h.find? (List.mem_of_find?_eq_some ht), hq, rfl⟩
  · exact .inr rfl

theorem Numbered.release (h : s.Numbered) : s.release.Numbered := by
  obtain ⟨t, hf, -, he⟩ | he := h.release_cases
  · rw [he]
    exact h.put hf
  · rw [he]
    exact h.congr rfl rfl

/-! ### The number of tasks that pass a test -/

theorem Numbered.tally_erase (h : s.Numbered) (hf : s.find? id = some t) :
    (s.erase id).tally p + (p t).toNat = s.tally p := by
  obtain rfl := id_of_find? hf
  exact countP_filter_add h.nodup (mem_of_find? hf)

theorem Numbered.tally_put (h : s.Numbered) (hf : s.find? t'.id = some t) :
    (s.put t').tally p + (p t).toNat = s.tally p + (p t').toNat := by
  have herase := h.tally_erase (p := p) hf
  have hput : (s.put t').tally p = (s.erase t'.id).tally p + (p t').toNat := by
    rw [tally, Scheduler.put, List.countP_append, List.countP_singleton]
    cases p t' <;> rfl
  omega

theorem tally_spawn (s : Scheduler α) (p : Task α → Bool) (plan : Plan) (job : Job α) :
    (s.spawn plan job).tally p = s.tally p + (p { id := s.nextId, job, plan }).toNat := by
  rw [tally, spawn, List.countP_append, List.countP_singleton]
  cases p { id := s.nextId, job, plan } <;> rfl

/-- A test that does not tell who stands in line from who has been given a worker. -/
theorem Numbered.tally_release (h : s.Numbered)
    (hp : ∀ t : Task α, t.phase = .queued → p { t with phase := .granted } = p t) :
    s.release.tally p = s.tally p := by
  obtain ⟨t, hf, hq, he⟩ | he := h.release_cases
  · have hput := h.tally_put (p := p)
      (show s.find? ({ t with phase := .granted } : Task α).id = some t from hf)
    rw [hp t hq] at hput
    rw [he]
    omega
  · rw [he]
    rfl

/-! ### What a small step spares -/

theorem find?_spawn (plan : Plan) (job : Job α) (h : s.find? id = some t) :
    (s.spawn plan job).find? id = some t := by
  rw [find?, spawn, List.find?_append]
  rw [find?] at h
  rw [h]
  rfl

theorem history_release (s : Scheduler α) : s.release.history = s.history := by
  unfold release
  split <;> rfl

end RingOverlay.Scheduler
