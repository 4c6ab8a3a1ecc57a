import RingOverlay.Proofs.Scheduler.Workers

/-!
# `Scheduler.Trace` — what becomes of one task

Most of what a scheduler does to a task is done by moves of the task itself. Moves of other tasks leave it
alone, except that it is granted a worker when one is given back. So one case for each thing that a task
can do (`Turned`), and one lemma for all others (`Numbered.idled_step`), tell a task's whole life.

## Contents
- **Paths.** `Path`, a course with the states in which its moves are made; `Path.ofMoves` for moves that are
  given.
- **Tasks by number.** `find?_…` for each small step.
- **One move.** `Move.task?`; `Idled` and `Turned`, what others' moves and its own make of a task.
- **Beginnings.** `begins`; `Path.begins_once`, since no task is fresh twice.
-/

namespace RingOverlay.Scheduler

variable {α : Type}

/-! ## Paths -/

/-- The state `s` leads to another one by these moves, each given with the state in which it is made, the
    latest first. In between anything may be noted. -/
inductive Path (s : Scheduler α) : List (Scheduler α × Move α) → Scheduler α → Prop where
  | refl : Path s [] s
  | move {path : List (Scheduler α × Move α)} {s' s'' : Scheduler α} (m : Move α)
      (hm : m.offered = true) (hs : s'.step? m = some s'') :
      Path s path s' → Path s ((s', m) :: path) s''
  | noted {path : List (Scheduler α × Move α)} {s' : Scheduler α} (n : Note) :
      Path s path s' → Path s path (s'.record (.noted n))

variable {s s' : Scheduler α} {t : Task α} {m : Move α} {path : List (Scheduler α × Move α)}
  {id id' : Nat}

theorem Path.course (h : Path s path s') : Course s (path.map Prod.snd) s' := by
  induction h with
  | refl => exact .refl
  | move m hm hs _ ih => exact .move hm hs ih
  | noted n _ ih => exact .noted n ih

/-- Moves made one after another, with the states in which they are made, the latest first. -/
def follow (s : Scheduler α) : List (Move α) → Option (List (Scheduler α × Move α) × Scheduler α)
  | [] => some ([], s)
  | m :: moves => do
    let s' ← s.step? m
    let (path, s'') ← follow s' moves
    return (path ++ [(s, m)], s'')

theorem Path.trans {path' : List (Scheduler α × Move α)} {s'' : Scheduler α} (h : Path s path s')
    (h' : Path s' path' s'') : Path s (path' ++ path) s'' := by
  induction h' with
  | refl => exact h
  | move m hm hs _ ih => exact .move m hm hs ih
  | noted n _ ih => exact .noted n ih

/-- Moves that can be made one after another. -/
theorem Path.ofMoves {moves : List (Move α)} (ho : ∀ m ∈ moves, m.offered = true)
    (h : s.follow moves = some (path, s')) : Path s path s' := by
  induction moves generalizing s path with
  | nil =>
    obtain ⟨rfl, rfl⟩ := Prod.mk.inj (Option.some_inj.1 h)
    exact .refl
  | cons m moves ih =>
    obtain ⟨hm, ho⟩ := List.forall_mem_cons.1 ho
    obtain ⟨s₁, hs₁, h⟩ := Option.bind_eq_some_iff.1 h
    obtain ⟨⟨path₁, s₂⟩, hrest, h⟩ := Option.bind_eq_some_iff.1 h
    obtain ⟨rfl, rfl⟩ := Prod.mk.inj (Option.some_inj.1 h)
    exact (Path.move m hm hs₁ .refl).trans (ih ho hrest)

/-! ## Tasks by number -/

theorem find?_erase_self (s : Scheduler α) (id : Nat) : (s.erase id).find? id = none := by
  rw [find?, erase, List.find?_eq_none]
  intro t ht
  simpa using (List.mem_filter.1 ht).2

theorem find?_erase_of_ne (s : Scheduler α) (h : id ≠ id') :
    (s.erase id').find? id = s.find? id := by
  rw [find?, erase, List.find?_filter, find?]
  congr 1
  funext t
  by_cases ht : t.id = id
  · simp [ht, h]
  · simp [ht]

theorem find?_put_self (s : Scheduler α) {t : Task α} (h : t.id = id) :
    (s.put t).find? id = some t := by
  have herase : (s.tasks.filter (·.id ≠ t.id)).find? (·.id = id) = none := by
    rw [h]
    exact s.find?_erase_self id
  rw [find?, put, List.find?_append, herase, Option.none_or, List.find?_singleton]
  simp [h]

theorem find?_put_of_ne (s : Scheduler α) {t : Task α} (h : id ≠ t.id) :
    (s.put t).find? id = s.find? id := by
  have herase : (s.tasks.filter (·.id ≠ t.id)).find? (·.id = id) = s.find? id :=
    s.find?_erase_of_ne h
  rw [find?, put, List.find?_append, herase, List.find?_singleton]
  simp [Ne.symm h]

theorem find?_spawn_of_lt (h : id < s.nextId) (plan : Plan) (job : Job α) :
    (s.spawn plan job).find? id = s.find? id := by
  rw [find?, spawn, List.find?_append, List.find?_singleton, find?]
  simp [Nat.ne_of_gt h]

theorem Numbered.find?_nextId (h : s.Numbered) : s.find? s.nextId = none := by
  rw [Scheduler.find?, List.find?_eq_none]
  intro t ht
  have hlt := h.lt t ht
  simp only [decide_eq_true_eq]
  omega

/-! ## One move -/

/-- The task that makes a move. -/
def Move.task? : Move α → Option Nat
  | .begin id | .take id | .acquire id | .fire id | .finish id | .stop id => some id
  | _ => none

/-- What others make of a task: nothing, or they give it the worker that it stands in line for. -/
inductive Idled : Option (Task α) → Option (Task α) → Prop where
  | same (o : Option (Task α)) : Idled o o
  | granted {t : Task α} : t.phase = .queued → Idled (some t) (some { t with phase := .granted })

theorem Idled.of_eq {o o' : Option (Task α)} (h : o' = o) : Idled o o' := h ▸ .same o

theorem Idled.eq_none {o : Option (Task α)} (h : Idled none o) : o = none := by
  cases h
  rfl

theorem Idled.eq_some {o : Option (Task α)} (h : Idled (some t) o) (hp : t.phase ≠ .queued) :
    o = some t := by
  cases h with
  | same => rfl
  | granted hq => exact absurd hq hp

theorem Numbered.idled_release (h : s.Numbered) (id : Nat) :
    Idled (s.find? id) (s.release.find? id) := by
  obtain ⟨t, hf, hq, he⟩ | he := h.release_cases
  · rw [he]
    by_cases hid : id = t.id
    · subst hid
      rw [hf, find?_put_self]
      · exact .granted hq
      · rfl
    · exact .of_eq (s.find?_put_of_ne hid)
  · rw [he]
    exact .same _

theorem find?_beginWork_of_ne (s : Scheduler α) {t : Task α} (h : id ≠ t.id) :
    (s.beginWork t).find? id = s.find? id := by
  have hput : (s.put { t with phase := .working, due := s.now + waitFor t.job.work }).find? id = _ :=
    s.find?_put_of_ne h
  exact hput

theorem find?_beginWork_self (s : Scheduler α) (t : Task α) : (s.beginWork t).find? t.id
    = some { t with phase := .working, due := s.now + waitFor t.job.work } :=
  s.find?_put_self rfl

theorem Numbered.idled_step (h : s.Numbered) (hs : Stepped s m s') (hid : id < s.nextId)
    (hm : m.task? ≠ some id) : Idled (s.find? id) (s'.find? id) := by
  cases hs with
  | schedule plan job => exact .of_eq (find?_spawn_of_lt hid plan job)
  | @begin t hf hp =>
    have hne : id ≠ t.id := fun he => hm (congrArg some he.symm)
    unfold begin
    split
    · simp only
      split
      · exact .of_eq (find?_erase_of_ne _ hne)
      · exact .of_eq (find?_put_of_ne _ hne)
    · exact .of_eq (find?_put_of_ne _ hne)
    · exact .of_eq (s.find?_beginWork_of_ne hne)
  | @take t hf hp hd =>
    have hne : id ≠ t.id := fun he => hm (congrArg some he.symm)
    unfold take
    split <;> exact .of_eq (find?_put_of_ne _ hne)
  | @acquire t hf hp =>
    have hne : id ≠ t.id := fun he => hm (congrArg some he.symm)
    unfold acquire
    split
    · have hput : (s.put { t with phase := .granted }).find? id = _ := s.find?_put_of_ne hne
      exact .of_eq hput
    · exact .of_eq (find?_put_of_ne _ hne)
  | @fire t hf hp =>
    have hne : id ≠ t.id := fun he => hm (congrArg some he.symm)
    unfold fire
    split
    · rw [find?_put_of_ne]
      · exact .of_eq (find?_spawn_of_lt hid .now t.job)
      · exact hne
    · exact .of_eq (find?_beginWork_of_ne _ hne)
  | @finish t hf hp hd =>
    have hne : id ≠ t.id := fun he => hm (congrArg some he.symm)
    have hrelease := ((h.record (.finished t.job)).erase t.id).idled_release id
    rw [find?_erase_of_ne _ hne] at hrelease
    exact hrelease
  | @stop t hf hs hp =>
    have hne : id ≠ t.id := fun he => hm (congrArg some he.symm)
    obtain ⟨s₁, ⟨hn₁, h₁⟩, he⟩ := stop_eq
      (P := fun s₁ => s₁.Numbered ∧ s₁.find? id = s.find? id) ⟨h, rfl⟩ (fun n => ⟨h.record _, rfl⟩) t
    rw [he, ← h₁, ← find?_erase_of_ne s₁ hne]
    split
    · exact (hn₁.erase t.id).idled_release id
    · exact .same _
  | clock _ => exact .same _
  | cancel => exact .same _
  | close => exact .same _

/-- What its own move makes of a task. -/
inductive Turned (s : Scheduler α) (t : Task α) : Move α → Option (Task α) → Prop where
  | givenUp : t.phase = .fresh → t.plan = .every 0 → Turned s t (.begin t.id) none
  | ticking {period : Nat} : t.phase = .fresh → t.plan = .every period → 0 < period →
      Turned s t (.begin t.id) (some { t with phase := .waiting, due := s.now + period })
  | delayed {delay : Nat} : t.phase = .fresh → t.plan = .after delay →
      Turned s t (.begin t.id) (some { t with phase := .waiting, due := s.now + waitFor delay })
  | started : t.phase = .fresh → t.plan = .now → Turned s t (.begin t.id)
      (some { t with phase := .working, due := s.now + waitFor t.job.work })
  | ticked {period : Nat} : t.phase = .waiting → t.due ≤ s.now → t.plan = .every period →
      Turned s t (.take t.id)
        (some { t with phase := .wanting, due := nextTick period t.due s.now })
  | elapsed : t.phase = .waiting → t.due ≤ s.now → (∀ period, t.plan ≠ .every period) →
      Turned s t (.take t.id) (some { t with phase := .wanting })
  | granted : t.phase = .wanting → Turned s t (.acquire t.id) (some { t with phase := .granted })
  | queued : t.phase = .wanting → Turned s t (.acquire t.id) (some { t with phase := .queued })
  | fired {period : Nat} : t.phase = .granted → t.plan = .every period →
      Turned s t (.fire t.id) (some { t with phase := .waiting })
  | worked : t.phase = .granted → (∀ period, t.plan ≠ .every period) → Turned s t (.fire t.id)
      (some { t with phase := .working, due := s.now + waitFor t.job.work })
  | finished : t.phase = .working → Turned s t (.finish t.id) none
  | stopped : t.phase.heedsStop = true → Turned s t (.stop t.id) none

theorem Numbered.turned (h : s.Numbered) (hs : Stepped s m s') (hm : m.task? = some id) :
    ∃ t, s.find? id = some t ∧ Turned s t m (s'.find? id) := by
  cases hs with
  | schedule plan job => cases hm
  | @begin t hf hp =>
    obtain rfl : t.id = id := Option.some_inj.1 hm
    refine ⟨t, hf, ?_⟩
    unfold begin
    split
    · next period hplan =>
      simp only
      split
      · next hzero =>
        rw [hzero] at hplan
        rw [find?_erase_self]
        exact .givenUp hp hplan
      · next hpos =>
        rw [find?_put_self]
        · exact .ticking hp hplan (Nat.pos_of_ne_zero hpos)
        · rfl
    · next delay hplan =>
      rw [find?_put_self]
      · exact .delayed hp hplan
      · rfl
    · next hplan =>
      rw [find?_beginWork_self]
      exact .started hp hplan
  | @take t hf hp hd =>
    obtain rfl : t.id = id := Option.some_inj.1 hm
    refine ⟨t, hf, ?_⟩
    unfold take
    split
    · next period hplan =>
      rw [find?_put_self]
      · exact .ticked hp hd hplan
      · rfl
    · next hplan =>
      rw [find?_put_self]
      · exact .elapsed hp hd hplan
      · rfl
  | @acquire t hf hp =>
    obtain rfl : t.id = id := Option.some_inj.1 hm
    refine ⟨t, hf, ?_⟩
    unfold acquire
    split
    · have hput : (s.put { t with phase := .granted }).find? t.id = _ := s.find?_put_self rfl
      exact hput ▸ .granted hp
    · rw [find?_put_self]
      · exact .queued hp
      · rfl
  | @fire t hf hp =>
    obtain rfl : t.id = id := Option.some_inj.1 hm
    refine ⟨t, hf, ?_⟩
    unfold fire
    split
    · next period hplan =>
      rw [find?_put_self]
      · exact .fired hp hplan
      · rfl
    · next hplan =>
      rw [find?_beginWork_self]
      exact .worked hp hplan
  | @finish t hf hp hd =>
    obtain rfl : t.id = id := Option.some_inj.1 hm
    have hrelease := ((h.record (.finished t.job)).erase t.id).idled_release t.id
    rw [find?_erase_self] at hrelease
    exact ⟨t, hf, hrelease.eq_none ▸ .finished hp⟩
  | @stop t hf hs hp =>
    obtain rfl : t.id = id := Option.some_inj.1 hm
    obtain ⟨s₁, hn₁, he⟩ := stop_eq (P := Numbered) h (fun n => h.record _) t
    have hrelease := (hn₁.erase t.id).idled_release t.id
    rw [find?_erase_self] at hrelease
    have hnone : (s.stop t).find? t.id = none := by
      rw [he]
      split
      · exact hrelease.eq_none
      · exact s₁.find?_erase_self t.id
    exact ⟨t, hf, hnone ▸ .stopped hp⟩
  | clock _ => cases hm
  | cancel => cases hm
  | close => cases hm

/-- Time does not go back, and no number is given out twice. -/
theorem le_of_stepped (hs : Stepped s m s') : s.now ≤ s'.now ∧ s.nextId ≤ s'.nextId := by
  have hrelease : ∀ s : Scheduler α, s.release.now = s.now ∧ s.release.nextId = s.nextId := by
    intro s
    unfold release
    split <;> exact ⟨rfl, rfl⟩
  cases hs with
  | schedule plan job => exact ⟨Nat.le_refl _, Nat.le_succ _⟩
  | @begin t hf hp =>
    unfold begin
    split
    · simp only
      split <;> exact ⟨Nat.le_refl _, Nat.le_refl _⟩
    · exact ⟨Nat.le_refl _, Nat.le_refl _⟩
    · exact ⟨Nat.le_refl _, Nat.le_refl _⟩
  | @take t hf hp hd =>
    unfold take
    split <;> exact ⟨Nat.le_refl _, Nat.le_refl _⟩
  | @acquire t hf hp =>
    unfold acquire
    split <;> exact ⟨Nat.le_refl _, Nat.le_refl _⟩
  | @fire t hf hp =>
    unfold fire
    split
    · exact ⟨Nat.le_refl _, Nat.le_succ _⟩
    · exact ⟨Nat.le_refl _, Nat.le_refl _⟩
  | @finish t hf hp hd =>
    rw [finish, (hrelease _).1, (hrelease _).2]
    exact ⟨Nat.le_refl _, Nat.le_refl _⟩
  | @stop t hf hs hp =>
    obtain ⟨s₁, ⟨hnow, hid⟩, he⟩ := stop_eq
      (P := fun s₁ => s.now ≤ s₁.now ∧ s.nextId ≤ s₁.nextId) ⟨Nat.le_refl _, Nat.le_refl _⟩
      (fun n => ⟨Nat.le_refl _, Nat.le_refl _⟩) t
    rw [he]
    split
    · rw [(hrelease _).1, (hrelease _).2]
      exact ⟨hnow, hid⟩
    · exact ⟨hnow, hid⟩
  | clock h => exact ⟨h, Nat.le_refl _⟩
  | cancel => exact ⟨Nat.le_refl _, Nat.le_refl _⟩
  | close => exact ⟨Nat.le_refl _, Nat.le_refl _⟩

/-- No move makes a task fresh again. -/
theorem Numbered.fresh_of_stepped (h : s.Numbered) (hs : Stepped s m s') (hid : id < s.nextId)
    (hf : s'.find? id = some t) (hp : t.phase = .fresh) :
    m.task? ≠ some id ∧ s.find? id = some t := by
  by_cases hm : m.task? = some id
  · obtain ⟨t₀, -, hturned⟩ := h.turned hs hm
    rw [hf] at hturned
    cases hturned <;> cases hp
  · have hidled := h.idled_step hs hid hm
    rw [hf] at hidled
    generalize ho : s.find? id = o at hidled
    cases hidled with
    | same => exact ⟨hm, rfl⟩
    | granted hq => cases hp

/-! ## Beginnings -/

/-- When the task of a number ran for the first time, by a move that is made. -/
def begun? (id : Nat) : Scheduler α × Move α → Option Nat
  | (s, .begin i) => if i = id then some s.now else none
  | _ => none

/-- When the task of a number ran for the first time on a path. -/
def begins (id : Nat) (path : List (Scheduler α × Move α)) : List Nat := path.filterMap (begun? id)

theorem begun?_eq_some {time : Nat} : begun? id (s, m) = some time ↔ m = .begin id ∧ time = s.now := by
  constructor
  · intro h
    cases m with
    | begin i =>
      rw [begun?] at h
      split at h
      · next hi => exact ⟨congrArg Move.begin hi, (Option.some_inj.1 h).symm⟩
      · cases h
    | _ => cases h
  · rintro ⟨rfl, rfl⟩
    exact if_pos rfl

/-- A task runs for the first time once, and is not fresh any more then. -/
theorem Path.begins_once [DecidableEq α] {workers : Nat} (h : Path s path s') (hs : Sound workers s)
    (id : Nat) : begins id path = [] ∨ ∃ time, begins id path = [time] ∧ id < s'.nextId ∧
      ∀ t, s'.find? id = some t → t.phase ≠ .fresh := by
  induction h with
  | refl => exact .inl rfl
  | noted n _ ih => exact ih
  | @move path s₁ s₂ m hm hstep hpath ih =>
    have hn := (hpath.course.sound hs).toNumbered
    have hstepped := stepped hstep
    have hle := (le_of_stepped hstepped).2
    show (begins id ((s₁, m) :: path)) = [] ∨ _
    unfold begins at ih ⊢
    rw [List.filterMap_cons]
    cases hb : begun? id (s₁, m) with
    | none =>
      obtain hnil | ⟨time, hone, hid, hfresh⟩ := ih
      · exact .inl hnil
      · refine .inr ⟨time, hone, Nat.lt_of_lt_of_le hid hle, ?_⟩
        intro t hf hp
        exact hfresh t (hn.fresh_of_stepped hstepped hid hf hp).2 hp
    | some time =>
      obtain ⟨rfl, rfl⟩ := begun?_eq_some.1 hb
      obtain ⟨t, hf, hturned⟩ := hn.turned hstepped rfl
      have hid : id < s₁.nextId := id_of_find? hf ▸ hn.lt t (mem_of_find? hf)
      obtain hnil | ⟨_, _, _, hfresh⟩ := ih
      · refine .inr ⟨s₁.now, by rw [hnil], Nat.lt_of_lt_of_le hid hle, ?_⟩
        intro t hf hp
        exact (hn.fresh_of_stepped hstepped hid hf hp).1 rfl
      · -- only a fresh task begins
        generalize s₂.find? _ = o at hturned
        have hp : t.phase = .fresh := by cases hturned <;> assumption
        exact absurd hp (hfresh t hf)

end RingOverlay.Scheduler
