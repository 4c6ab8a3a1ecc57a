import RingOverlay.Proofs.Scheduler.Trace

/-!
# `Scheduler.Grid` — a recurring job keeps to its grid

The first tick of a recurring job is due a period after its task has run for the first time. However late a
tick is taken, the next one is due a whole number of steps after the instant that this one was due for.
Between two ticks the task hands a worker to a firing. While it waits for the worker it takes no tick, so
ticks and firings alternate, and the ticks that it could have taken meanwhile are left out.

A step is the period, but no more than the longest wait (`waitFor`). That is how timers were seen to work, and
not what is promised of them: it is promised that ticks stay on the grid of the period, and that those
missed are left out. The two differ only for periods of more than thirty years (`period_not_kept_glacial`).

## Contents
- **The grid.** `nextTick_spec`.
- **Records.** `ticks` and `firings`, read off a path; `Paced`, ticks and firings in turn.
- **The task.** `Stage`, kept by moves of others (`Stage.idled`) and by its own (`Stage.turned`).
- **Paths.** `Timed`, kept by each move; `ticks_on_grid`.
-/

namespace RingOverlay.Scheduler

variable {α : Type}

/-! ## The grid -/

theorem waitFor_pos {ms : Nat} (h : 0 < ms) : 0 < waitFor ms := by
  unfold waitFor longestWait
  omega

/-- The next tick is some steps after the one that is taken, at least one. -/
theorem nextTick_spec {period due now : Nat} (hp : 0 < period) (hd : due ≤ now) :
    ∃ k, nextTick period due now = due + (k + 1) * waitFor period := by
  have hpos := waitFor_pos hp
  unfold nextTick
  simp only
  split
  · exact ⟨0, by omega⟩
  · refine ⟨(now - due) / waitFor period, ?_⟩
    have hdiv := Nat.div_add_mod' (now - due) (waitFor period)
    rw [Nat.add_mul, Nat.one_mul]
    omega

/-! ## Records -/

/-- A tick that a task takes. -/
structure Tick where
  /-- When it was due. -/
  instant : Nat
  /-- When it is taken. -/
  time : Nat

/-- A worker that a task hands on. -/
structure Firing where
  /-- The task that does the job. -/
  number : Nat
  /-- When it is handed on. -/
  time : Nat

/-- The tick that the task of a number takes by a move. -/
def tick? (id : Nat) : Scheduler α × Move α → Option Tick
  | (s, .take i) => if i = id then (s.find? id).map fun t => ⟨t.due, s.now⟩ else none
  | _ => none

/-- The firing that the task of a number adds by a move. -/
def firing? (id : Nat) : Scheduler α × Move α → Option Firing
  | (s, .fire i) => if i = id then some ⟨s.nextId, s.now⟩ else none
  | _ => none

/-- The ticks that the task of a number takes on a path, the latest first. -/
def ticks (id : Nat) (path : List (Scheduler α × Move α)) : List Tick := path.filterMap (tick? id)

/-- The firings that the task of a number adds on a path, the latest first. -/
def firings (id : Nat) (path : List (Scheduler α × Move α)) : List Firing :=
  path.filterMap (firing? id)

variable {s s' s₀ : Scheduler α} {t : Task α} {m : Move α} {path : List (Scheduler α × Move α)}
  {id first stride period added workers : Nat}

/-- What the first element yields, if anything, comes first. -/
theorem filterMap_cons_toList {β γ : Type} (f : β → Option γ) (b : β) (l : List β) :
    (b :: l).filterMap f = (f b).toList ++ l.filterMap f := by
  rw [List.filterMap_eq_flatMap_toList, List.flatMap_cons, ← List.filterMap_eq_flatMap_toList]

theorem ticks_cons (id : Nat) (made : Scheduler α × Move α) (path : List (Scheduler α × Move α)) :
    ticks id (made :: path) = (tick? id made).toList ++ ticks id path :=
  filterMap_cons_toList (tick? id) made path

theorem firings_cons (id : Nat) (made : Scheduler α × Move α) (path : List (Scheduler α × Move α)) :
    firings id (made :: path) = (firing? id made).toList ++ firings id path :=
  filterMap_cons_toList (firing? id) made path

theorem begins_cons (id : Nat) (made : Scheduler α × Move α) (path : List (Scheduler α × Move α)) :
    begins id (made :: path) = (begun? id made).toList ++ begins id path :=
  filterMap_cons_toList (begun? id) made path

theorem time_of_tick? {tick : Tick} (h : tick? id (s, m) = some tick) : tick.time = s.now := by
  cases m with
  | take i =>
    obtain ⟨-, hsome⟩ := Option.ite_none_right_eq_some.1 h
    obtain ⟨t, -, rfl⟩ := Option.map_eq_some_iff.1 hsome
    rfl
  | _ => cases h

/-- Moves of others are no ticks and no firings of a task. -/
theorem records_of_ne (h : m.task? ≠ some id) :
    tick? id (s, m) = none ∧ firing? id (s, m) = none ∧ begun? id (s, m) = none := by
  have hne : ∀ i, m.task? = some i → i ≠ id := fun i hi he => h (he ▸ hi)
  cases m with
  | begin i => exact ⟨rfl, rfl, if_neg (hne i rfl)⟩
  | take i => exact ⟨if_neg (hne i rfl), rfl, rfl⟩
  | fire i => exact ⟨rfl, if_neg (hne i rfl), rfl⟩
  | _ => exact ⟨rfl, rfl, rfl⟩

/-- Ticks and firings in turn, the latest first: a tick that waits for its firing comes before any other.
    The ticks are due at instants of the grid that begins at `first`, each after those before it. -/
inductive Paced (first stride : Nat) : Bool → List Tick → List Firing → Prop where
  | start : Paced first stride false [] []
  | tick {ticks : List Tick} {firings : List Firing} {k time : Nat} :
      Paced first stride false ticks firings → (∀ tick ∈ ticks, tick.instant < first + k * stride) →
      first + k * stride ≤ time → Paced first stride true (⟨first + k * stride, time⟩ :: ticks) firings
  | fire {ticks : List Tick} {firings : List Firing} {firing : Firing} :
      Paced first stride true ticks firings → (∀ tick ∈ ticks, tick.time ≤ firing.time) →
      (∀ earlier ∈ firings, earlier.number < firing.number) →
      Paced first stride false ticks (firing :: firings)

section Paced

variable {waits : Bool} {T : List Tick} {F : List Firing}

theorem Paced.length (h : Paced first stride waits T F) : T.length = F.length + waits.toNat := by
  induction h with
  | start => rfl
  | tick _ _ _ ih => rw [List.length_cons, ih]; rfl
  | fire _ _ _ ih => rw [List.length_cons, ih]; rfl

/-- No tick waits. -/
theorem Paced.balanced (h : Paced first stride false T F) : T.reverse.length = F.reverse.length := by
  rw [List.length_reverse, List.length_reverse]
  exact h.length

theorem Paced.instant (h : Paced first stride waits T F) :
    ∀ tick ∈ T, (∃ k, tick.instant = first + k * stride) ∧ tick.instant ≤ tick.time := by
  induction h with
  | start => exact fun _ hmem => absurd hmem List.not_mem_nil
  | @tick _ _ k time _ _ hlate ih => exact List.forall_mem_cons.2 ⟨⟨⟨k, rfl⟩, hlate⟩, ih⟩
  | fire _ _ _ ih => exact ih

theorem Paced.increasing (h : Paced first stride waits T F) :
    T.Pairwise fun later earlier => earlier.instant < later.instant := by
  induction h with
  | start => exact .nil
  | tick _ hlater _ ih => exact .cons hlater ih
  | fire _ _ _ ih => exact ih

theorem Paced.numbered (h : Paced first stride waits T F) :
    F.Pairwise fun later earlier => earlier.number < later.number := by
  induction h with
  | start => exact .nil
  | tick _ _ _ ih => exact ih
  | fire _ _ hnew ih => exact .cons hnew ih

/-- The last one of a longer list is left over. -/
theorem zip_concat_left {β γ : Type} {l : List β} {l' : List γ} (h : l.length = l'.length) (b : β) :
    (l ++ [b]).zip l' = l.zip l' := by
  have hzip : (l ++ [b]).zip (l' ++ []) = l.zip l' ++ [b].zip [] := List.zip_append h
  rwa [List.append_nil, List.zip_nil_right, List.append_nil] at hzip

/-- A firing comes after the tick that it is for, the first one after the first tick and so on. -/
theorem Paced.ordered (h : Paced first stride waits T F) :
    ∀ p ∈ T.reverse.zip F.reverse, p.1.time ≤ p.2.time := by
  induction h with
  | start => exact fun _ hmem => absurd hmem List.not_mem_nil
  | tick hpaced _ _ ih =>
    rw [List.reverse_cons, zip_concat_left hpaced.balanced]
    exact ih
  | fire hpaced hafter _ ih =>
    cases hpaced with
    | tick hbefore _ _ =>
      rw [List.reverse_cons, zip_concat_left hbefore.balanced] at ih
      rw [List.reverse_cons, List.reverse_cons, List.zip_append hbefore.balanced]
      intro p hp
      rcases List.mem_append.1 hp with hp | hp
      · exact ih p hp
      · obtain rfl := List.mem_singleton.1 hp
        exact hafter _ List.mem_cons_self

end Paced

/-! ## The task -/

/-- Whether the task of a recurring job has taken a tick that waits for its firing. -/
def Phase.waits? : Phase → Option Bool
  | .waiting => some false
  | .wanting | .queued | .granted => some true
  | .fresh | .working => none

/-- What is left of the task of a recurring job whose first tick is due at `first`. -/
inductive Stage (first period : Nat) : Option (Task α) → List Tick → List Firing → Prop where
  | running {t : Task α} {waits : Bool} {k : Nat} {T : List Tick} {F : List Firing} :
      t.plan = .every period → 0 < period → t.phase.waits? = some waits →
      t.due = first + k * waitFor period → (∀ tick ∈ T, tick.instant < t.due) →
      Paced first (waitFor period) waits T F → Stage first period (some t) T F
  | ended {waits : Bool} {T : List Tick} {F : List Firing} :
      Paced first (waitFor period) waits T F → Stage first period none T F

section Stage

variable {T : List Tick} {F : List Firing} {o o' : Option (Task α)}

theorem Stage.paced (h : Stage first period o T F) :
    ∃ waits, Paced first (waitFor period) waits T F := by
  cases h with
  | running _ _ _ _ _ hpaced => exact ⟨_, hpaced⟩
  | ended hpaced => exact ⟨_, hpaced⟩

/-- When the task of a recurring job runs for the first time, its first tick is a period away. -/
theorem Turned.stage (h : Turned s t m o') (hp : t.phase = .fresh) (hplan : t.plan = .every period) :
    m = .begin t.id ∧ Stage (s.now + period) period o' [] [] := by
  cases h with
  | givenUp => exact ⟨rfl, .ended .start⟩
  | ticking _ hplan' hpos =>
    obtain rfl := Plan.every.inj (hplan.symm.trans hplan')
    refine ⟨rfl, .running (k := 0) hplan hpos rfl ?_ nofun .start⟩
    rw [Nat.zero_mul]
    rfl
  | delayed _ hplan' | started _ hplan' =>
    rw [hplan] at hplan'
    cases hplan'
  | ticked hp' | elapsed hp' | granted hp' | queued hp' | fired hp' | worked hp' | finished hp' =>
    rw [hp] at hp'
    cases hp'
  | stopped hp' =>
    rw [hp] at hp'
    cases hp'

theorem Stage.idled (h : Stage first period o T F) (hi : Idled o o') :
    Stage first period o' T F := by
  cases hi with
  | same => exact h
  | granted hq =>
    cases h with
    | running hplan hpos hwaits hdue hlater hpaced =>
      rw [hq] at hwaits
      exact .running hplan hpos hwaits hdue hlater hpaced

theorem Stage.turned (h : Stage first period (some t) T F) (ht : Turned s t m o')
    (hf : s.find? t.id = some t) (hT : ∀ tick ∈ T, tick.time ≤ s.now)
    (hF : ∀ firing ∈ F, firing.number < s.nextId) : begun? t.id (s, m) = none ∧
    Stage first period o' ((tick? t.id (s, m)).toList ++ T) ((firing? t.id (s, m)).toList ++ F) := by
  obtain @⟨_, _, k, _, _, hplan, hpos, hwaits, hdue, hlater, hpaced⟩ := h
  cases ht with
  | givenUp hp | ticking hp | delayed hp | started hp | finished hp =>
    -- the task has begun, and it does not do its job itself
    rw [hp] at hwaits
    cases hwaits
  | elapsed _ _ hplan' | worked _ hplan' => exact absurd hplan (hplan' period)
  | @ticked period' hp hd hplan' =>
    obtain rfl : period = period' := Plan.every.inj (hplan.symm.trans hplan')
    rw [hp] at hwaits
    obtain rfl : false = _ := Option.some_inj.1 hwaits
    obtain ⟨steps, hnext⟩ := nextTick_spec hpos hd
    have htick : tick? t.id (s, .take t.id) = some ⟨t.due, s.now⟩ := by
      rw [tick?, if_pos rfl, hf]
      rfl
    have hgrid : t.due + (steps + 1) * waitFor period
        = first + (k + (steps + 1)) * waitFor period := by
      rw [hdue, Nat.add_assoc, ← Nat.add_mul]
    have hstep : 0 < (steps + 1) * waitFor period := Nat.mul_pos (Nat.succ_pos steps) (waitFor_pos hpos)
    have hnow : ∀ tick ∈ Tick.mk t.due s.now :: T, tick.instant < nextTick period t.due s.now := by
      intro tick hmem
      have hle : tick.instant ≤ t.due := by
        rcases List.mem_cons.1 hmem with rfl | hmem
        · exact Nat.le_refl _
        · exact Nat.le_of_lt (hlater tick hmem)
      rw [hnext]
      omega
    rw [htick]
    refine ⟨rfl, .running hplan hpos rfl (hnext.trans hgrid) hnow ?_⟩
    rw [hdue] at hlater hd ⊢
    exact .tick hpaced hlater hd
  | granted hp | queued hp =>
    rw [hp] at hwaits
    exact ⟨rfl, .running hplan hpos hwaits hdue hlater hpaced⟩
  | fired hp hplan' =>
    rw [hp] at hwaits
    obtain rfl : true = _ := Option.some_inj.1 hwaits
    have hfiring : firing? t.id (s, .fire t.id) = some ⟨s.nextId, s.now⟩ := if_pos rfl
    rw [hfiring]
    exact ⟨rfl, .running hplan hpos rfl hdue hlater (.fire hpaced hT hF)⟩
  | stopped hp => exact ⟨rfl, .ended hpaced⟩

end Stage

/-! ## Paths -/

/-- What is known of a recurring job that was added at the time `added`, after a path on which its task has
    the number `id`. -/
structure Timed (id added period : Nat) (path : List (Scheduler α × Move α)) (s : Scheduler α) :
    Prop where
  lt : id < s.nextId
  given : added ≤ s.now
  ticked : ∀ tick ∈ ticks id path, tick.time ≤ s.now
  fired : ∀ firing ∈ firings id path, firing.number < s.nextId ∧ firing.time ≤ s.now ∧
    ∀ time ∈ begins firing.number path, firing.time ≤ time
  begun : begins id path = [] ∧ ticks id path = [] ∧ firings id path = [] ∧
      (∃ t, s.find? id = some t ∧ t.plan = .every period ∧ t.phase = .fresh) ∨
    ∃ t₀, added ≤ t₀ ∧ begins id path = [t₀] ∧
      Stage (t₀ + period) period (s.find? id) (ticks id path) (firings id path)

/-- The task has been added and has not run yet. -/
theorem timed_spawn (s : Scheduler α) (hn : s.Numbered) (period : Nat) (job : Job α) :
    Timed s.nextId s.now period [] (s.spawn (.every period) job) where
  lt := Nat.lt_succ_self _
  given := Nat.le_refl _
  ticked _ h := absurd h List.not_mem_nil
  fired _ h := absurd h List.not_mem_nil
  begun := by
    refine .inl ⟨rfl, rfl, rfl, { id := s.nextId, job, plan := .every period }, ?_, rfl, rfl⟩
    have hnone : s.tasks.find? (·.id = s.nextId) = none := hn.find?_nextId
    rw [find?, spawn, List.find?_append, hnone, Option.none_or, List.find?_singleton]
    simp

theorem Timed.plan (h : Timed id added period path s) (hf : s.find? id = some t) :
    t.plan = .every period := by
  obtain ⟨-, -, -, t', hf', hplan, -⟩ | ⟨t₀, -, -, hstage⟩ := h.begun
  · rw [hf] at hf'
    rw [Option.some_inj.1 hf', hplan]
  · rw [hf] at hstage
    cases hstage with
    | running hplan => exact hplan

/-- A firing is a task that was not there before. -/
theorem nextId_fire (s : Scheduler α) (hplan : t.plan = .every period) :
    (s.fire t).nextId = s.nextId + 1 := by
  unfold fire
  rw [hplan]
  rfl

theorem Timed.firing (h : Timed id added period path s) (hs : Stepped s m s') {firing : Firing}
    (hfiring : firing? id (s, m) = some firing) :
    firing = ⟨s.nextId, s.now⟩ ∧ s.nextId < s'.nextId := by
  cases hs with
  | @fire t hf hp =>
    obtain ⟨rfl, hsome⟩ := Option.ite_none_right_eq_some.1 hfiring
    obtain rfl := Option.some_inj.1 hsome
    rw [nextId_fire s (h.plan hf)]
    exact ⟨rfl, Nat.lt_succ_self _⟩
  | _ => cases hfiring

theorem Timed.step (h : Timed id added period path s) (hn : s.Numbered) (hs : Stepped s m s')
    (hnew : begins s.nextId path = []) : Timed id added period ((s, m) :: path) s' := by
  obtain ⟨hnow, hnext⟩ := le_of_stepped hs
  have hbegins : ∀ {number time : Nat}, time ∈ begins number ((s, m) :: path) →
      time = s.now ∨ time ∈ begins number path := by
    intro number time hmem
    rw [begins_cons, List.mem_append, Option.mem_toList] at hmem
    exact hmem.imp_left fun hb => (begun?_eq_some.1 hb).2
  refine ⟨Nat.lt_of_lt_of_le h.lt hnext, Nat.le_trans h.given hnow, ?_, ?_, ?_⟩
  · intro tick hmem
    rw [ticks_cons, List.mem_append, Option.mem_toList] at hmem
    obtain htick | hmem := hmem
    · rw [time_of_tick? htick]
      exact hnow
    · exact Nat.le_trans (h.ticked tick hmem) hnow
  · intro firing hmem
    rw [firings_cons, List.mem_append, Option.mem_toList] at hmem
    obtain hfiring | hmem := hmem
    · obtain ⟨rfl, hlt⟩ := h.firing hs hfiring
      refine ⟨hlt, hnow, ?_⟩
      intro time hmem
      obtain rfl | hmem := hbegins hmem
      · exact Nat.le_refl _
      · rw [hnew] at hmem
        cases hmem
    · obtain ⟨hlt, hle, hafter⟩ := h.fired firing hmem
      refine ⟨Nat.lt_of_lt_of_le hlt hnext, Nat.le_trans hle hnow, ?_⟩
      intro time hmem
      obtain rfl | hmem := hbegins hmem
      · exact hle
      · exact hafter time hmem
  · rw [begins_cons, ticks_cons, firings_cons]
    by_cases hm : m.task? = some id
    · obtain ⟨t, hf, hturned⟩ := hn.turned hs hm
      obtain rfl := id_of_find? hf
      obtain ⟨hnone, hticks, hfirings, t', hf', hplan, hp⟩ | ⟨t₀, hle, hone, hstage⟩ := h.begun
      · obtain rfl : t = t' := Option.some_inj.1 (hf.symm.trans hf')
        obtain ⟨rfl, hstage⟩ := hturned.stage hp hplan
        rw [hnone, hticks, hfirings]
        exact .inr ⟨s.now, h.given, by rw [begun?, if_pos rfl]; rfl, hstage⟩
      · rw [hf] at hstage
        obtain ⟨hbegun, hstage⟩ := hstage.turned hturned hf h.ticked
          fun firing hmem => (h.fired firing hmem).1
        rw [hbegun]
        exact .inr ⟨t₀, hle, hone, hstage⟩
    · obtain ⟨htick, hfiring, hbegun⟩ := records_of_ne (s := s) hm
      have hidled := hn.idled_step hs h.lt hm
      rw [htick, hfiring, hbegun]
      obtain ⟨hnone, hticks, hfirings, t, hf, hplan, hp⟩ | ⟨t₀, hle, hone, hstage⟩ := h.begun
      · have hline : t.phase ≠ .queued := by
          rw [hp]
          decide
        rw [hf] at hidled
        exact .inl ⟨hnone, hticks, hfirings, t, hidled.eq_some hline, hplan, hp⟩
      · exact .inr ⟨t₀, hle, hone, hstage.idled hidled⟩

theorem Path.timed [DecidableEq α] {job : Job α} (h : Path (s₀.spawn (.every period) job) path s)
    (hs : Sound workers s₀) : Timed s₀.nextId s₀.now period path s := by
  have hspawn : Sound workers (s₀.spawn (.every period) job) := hs.spawn (by exact nofun) job
  induction h with
  | refl => exact timed_spawn s₀ hs.toNumbered period job
  | noted n _ ih => exact ⟨ih.lt, ih.given, ih.ticked, ih.fired, ih.begun⟩
  | @move path s₁ s₂ m hm hstep hpath ih =>
    have hn := (hpath.course.sound hspawn).toNumbered
    refine ih.step hn (stepped hstep) ?_
    obtain hnil | ⟨time, -, hlt, -⟩ := hpath.begins_once hspawn s₁.nextId
    · exact hnil
    · exact absurd hlt (Nat.lt_irrefl _)

/-- A job that recurs with a period is added to any scheduler, and anything happens from then on. There is a
    time, not before the job was added, at which its task runs for the first time. The ticks that the task
    takes are due a period after that time and at equal distances from there on, a period each or, where
    that is longer, the longest wait. Each tick is due after the ones before it and is taken when it is
    due or later. At every moment the firings are as many as the ticks, or the last tick waits for its
    firing. A firing comes after its tick, has a task of its own, and begins at most once, not before that. -/
theorem ticks_on_grid [DecidableEq α] {now : Nat} {job : Job α} {moves : List (Move α)}
    (hcourse : Course (create workers now) moves s₀)
    (hpath : Path (s₀.spawn (.every period) job) path s) : ∃ t₀, s₀.now ≤ t₀ ∧
      (∀ time ∈ begins s₀.nextId path, time = t₀) ∧
      (∀ tick ∈ ticks s₀.nextId path,
        (∃ k, tick.instant = t₀ + period + k * waitFor period) ∧ tick.instant ≤ tick.time) ∧
      ((ticks s₀.nextId path).Pairwise fun later earlier => earlier.instant < later.instant) ∧
      (firings s₀.nextId path).length ≤ (ticks s₀.nextId path).length ∧
      (ticks s₀.nextId path).length ≤ (firings s₀.nextId path).length + 1 ∧
      ((firings s₀.nextId path).Pairwise fun later earlier => earlier.number < later.number) ∧
      ∀ p ∈ (ticks s₀.nextId path).reverse.zip (firings s₀.nextId path).reverse,
        p.1.time ≤ p.2.time ∧ (begins p.2.number path).length ≤ 1 ∧
          ∀ time ∈ begins p.2.number path, p.2.time ≤ time := by
  have hsound : Sound (max workers 1) s₀ := hcourse.sound sound_create
  have hspawn : Sound (max workers 1) (s₀.spawn (.every period) job) := hsound.spawn (by exact nofun) job
  have htimed := hpath.timed hsound
  have honce := hpath.begins_once hspawn
  obtain ⟨hnone, hticks, hfirings, -⟩ | ⟨t₀, hle, hone, hstage⟩ := htimed.begun
  · rw [hnone, hticks, hfirings]
    exact ⟨s₀.now, Nat.le_refl _, nofun, nofun, .nil, Nat.le_refl _, Nat.le_succ _, .nil, nofun⟩
  · obtain ⟨waits, hpaced⟩ := hstage.paced
    have hlen := hpaced.length
    have hwaits := Bool.toNat_le waits
    refine ⟨t₀, hle, ?_, hpaced.instant, hpaced.increasing, by omega, by omega, hpaced.numbered, ?_⟩
    · rw [hone]
      exact fun time hmem => List.mem_singleton.1 hmem
    · intro p hp
      have hfiring := List.mem_reverse.1 (List.of_mem_zip hp).2
      refine ⟨hpaced.ordered p hp, ?_, (htimed.fired p.2 hfiring).2.2⟩
      obtain hnil | ⟨time, hone, -⟩ := honce p.2.number
      · rw [hnil]
        exact Nat.zero_le _
      · rw [hone]
        exact Nat.le_refl _

/-- A job that takes no time. -/
def metronome : Job Unit := ⟨"metronome", 0, ()⟩

/-- The task runs for the first time at 4, after the job has been added at 0. The second tick is taken late, and the
    tick after that one is left out. -/
def dragging : List (Move Unit) :=
  [.clock 4, .begin 0, .clock 14, .take 0, .acquire 0, .fire 0, .begin 1, .finish 1, .clock 41, .take 0,
    .acquire 0, .fire 0, .clock 44, .take 0]

/-- The grid begins where the task has run, and not where the job was added. -/
theorem ticks_on_grid_dragging : ∃ path s,
    Path ((create 1 0).spawn (.every 10) metronome) path s ∧ begins 0 path = [4] ∧
    (ticks 0 path).map (·.instant) = [44, 24, 14] ∧ ∀ tick ∈ ticks 0 path,
      (∃ k, tick.instant = 4 + 10 + k * waitFor 10) ∧ tick.instant ≤ tick.time := by
  have hfacts : (((create 1 0).spawn (.every 10) metronome).follow dragging).map
      (fun p => (begins 0 p.1, (ticks 0 p.1).map (·.instant))) = some ([4], [44, 24, 14]) := by
    decide +kernel
  obtain ⟨⟨path, s⟩, hfollow, hfacts⟩ := Option.map_eq_some_iff.1 hfacts
  obtain ⟨hbegins, hinstants⟩ := Prod.mk.inj hfacts
  have hpath := Path.ofMoves (by decide) hfollow
  have hstart : Course (create 1 0) [] (create 1 0 : Scheduler Unit) := .refl
  obtain ⟨t₀, -, hfirst, hgrid, -⟩ := ticks_on_grid hstart hpath
  obtain rfl : 4 = t₀ := hfirst 4 (hbegins ▸ List.mem_singleton_self 4)
  exact ⟨path, s, hpath, hbegins, hinstants, hgrid⟩

/-- The job recurs after a millisecond more than the longest wait. -/
def glacial : List (Move Unit) :=
  [.begin 0, .clock 946080000001, .take 0, .acquire 0, .fire 0, .clock 1892160000001, .take 0]

/-- A period that is longer than the longest wait is kept before the first tick only. -/
theorem period_not_kept_glacial : ∃ path s,
    Path ((create 1 0).spawn (.every 946080000001) metronome) path s ∧ begins 0 path = [0] ∧
    ∃ tick ∈ ticks 0 path, ∀ k, tick.instant ≠ 0 + k * 946080000001 := by
  have hfacts : (((create 1 0).spawn (.every 946080000001) metronome).follow glacial).map
      (fun p => (begins 0 p.1, (ticks 0 p.1).map (·.instant)))
        = some ([0], [1892160000001, 946080000001]) := by decide +kernel
  obtain ⟨⟨path, s⟩, hfollow, hfacts⟩ := Option.map_eq_some_iff.1 hfacts
  obtain ⟨hbegins, hinstants⟩ := Prod.mk.inj hfacts
  have hlate : 1892160000001 ∈ (ticks 0 path).map (·.instant) := hinstants ▸ List.mem_cons_self
  obtain ⟨tick, hmem, hinstant⟩ := List.mem_map.1 hlate
  refine ⟨path, s, .ofMoves (by decide) hfollow, hbegins, tick, hmem, ?_⟩
  intro k
  rw [hinstant]
  omega

end RingOverlay.Scheduler
