import RingOverlay.Journal

/-!
# `RingOverlay.Scheduler.Basic` — jobs on a bounded number of workers

A scheduler fires recurring and delayed jobs. A firing needs one of a fixed number of workers; who finds
none free waits in line. The scheduler is a state and its tasks make moves; a move that a task cannot
make in a state is refused. Where a task could make several moves, any of them may happen.

## Contents
- **State.** `Job`, `Plan`, `Phase`, `Task`, `Happening`, `Scheduler`.
- **Limits.** `mostWorkers`, `longestWait`.
- **Small steps.** `put`, `erase`, `release`, `nextTick`.
- **Moves.** `Move`, `step?`.
-/

namespace RingOverlay

namespace Scheduler

/-- What is to be done when a task fires. -/
structure Job (α : Type) where
  name : String
  /-- The time that it takes, in milliseconds. -/
  work : Nat
  action : α
  deriving DecidableEq, Inhabited, Repr

/-- When the job of a task fires. -/
inductive Plan where
  /-- Once every period. -/
  | every (period : Nat)
  /-- Once, after a delay. -/
  | after (delay : Nat)
  /-- At once: this is one firing of a recurring job and holds a worker. -/
  | now
  deriving DecidableEq, Inhabited, Repr

/-- How far a task has come. -/
inductive Phase where
  /-- It has not run yet. -/
  | fresh
  /-- It waits until its time has come. -/
  | waiting
  /-- Its time has come and it wants a worker. -/
  | wanting
  /-- It stands in line for a worker. -/
  | queued
  /-- It has been given a worker. -/
  | granted
  /-- It does its job. -/
  | working
  deriving DecidableEq, Inhabited, Repr

/-- The phases in which a task heeds a request to stop. -/
def Phase.heedsStop : Phase → Bool
  | waiting | wanting | queued | granted => true
  | fresh | working => false

/-- A task of the scheduler. -/
structure Task (α : Type) where
  id : Nat
  job : Job α
  plan : Plan
  phase : Phase := .fresh
  /-- The time of the next tick, or of the end of its work. -/
  due : Nat := 0
  deriving DecidableEq, Inhabited, Repr

/-- What can be seen of a scheduler from outside. -/
inductive Happening (α : Type) where
  | started (job : Job α)
  | finished (job : Job α)
  | noted (note : Note)
  deriving DecidableEq, Inhabited, Repr

end Scheduler

/-- A scheduler. Of two tasks in `tasks` the earlier one has kept its phase for longer. -/
structure Scheduler (α : Type) where
  /-- The time in milliseconds. -/
  now : Nat := 0
  /-- The number of workers that are free. -/
  free : Nat
  tasks : List (Scheduler.Task α) := []
  nextId : Nat := 0
  /-- Whether tasks are asked to stop. -/
  stopping : Bool := false
  /-- Whether the scheduler has been shut down. -/
  closed : Bool := false
  /-- What happened and when, the latest first. -/
  history : List (Nat × Scheduler.Happening α) := []
  deriving Inhabited, Repr

namespace Scheduler

variable {α : Type}

/-! ## Limits -/

/-- The most workers that a scheduler can have. -/
def mostWorkers : Nat := 0x1fffffffffffffff

/-- The report for more workers than that. -/
def tooManyWorkers : String :=
  "a semaphore may not have more than MAX_PERMITS permits (" ++ toString mostWorkers ++ ")"

/-- The longest that a delay, a job's work or the time from one tick to the next can take: thirty years of
    365 days, in milliseconds. -/
def longestWait : Nat := 946080000000

/-- How long a wait for `ms` milliseconds takes. -/
def waitFor (ms : Nat) : Nat := min ms longestWait

/-- A scheduler with a number of workers, at least one. -/
def create (workers now : Nat) : Scheduler α := { now, free := max workers 1 }

/-- A scheduler with a number of workers, if it can have so many. -/
def create? (workers now : Nat) : Option (Scheduler α) :=
  if workers ≤ mostWorkers then some (create workers now) else none

/-- The task of a number. -/
def find? (s : Scheduler α) (id : Nat) : Option (Task α) := s.tasks.find? (·.id = id)

/-- The tasks that do their jobs at the moment. -/
def running (s : Scheduler α) : List (Task α) := s.tasks.filter (·.phase = .working)

/-! ## Small steps -/

/-- Records what happened. -/
def record (s : Scheduler α) (h : Happening α) : Scheduler α :=
  { s with history := (s.now, h) :: s.history }

/-- Takes a task out. -/
def erase (s : Scheduler α) (id : Nat) : Scheduler α :=
  { s with tasks := s.tasks.filter (·.id ≠ id) }

/-- Puts a task in at the end, in the place of the one of its number. -/
def put (s : Scheduler α) (t : Task α) : Scheduler α :=
  { s with tasks := s.tasks.filter (·.id ≠ t.id) ++ [t] }

/-- Gives a worker back: to the first task in line, else to the free ones. -/
def release (s : Scheduler α) : Scheduler α :=
  match s.tasks.find? (·.phase = .queued) with
  | some t => s.put { t with phase := .granted }
  | none => { s with free := s.free + 1 }

/-- Adds a task. -/
def spawn (s : Scheduler α) (plan : Plan) (job : Job α) : Scheduler α :=
  { s with tasks := s.tasks ++ [{ id := s.nextId, job, plan }], nextId := s.nextId + 1 }

/-- Lets a task begin its work. -/
def beginWork (s : Scheduler α) (t : Task α) : Scheduler α :=
  (s.put { t with phase := .working, due := s.now + waitFor t.job.work }).record (.started t.job)

/-- A tick that is late by more than this many milliseconds makes the ticks in between be left out. -/
def tolerance : Nat := 5

/-- The time of the tick after one that was due at `due` and is taken at `now`. Ticks stay on the grid
    of the period; those already missed are left out. The grid is no wider than the longest wait. -/
def nextTick (period due now : Nat) : Nat :=
  let period := waitFor period
  if now - due ≤ tolerance then due + period else now + period - (now - due) % period

/-! ## Moves -/

/-- What can happen to a scheduler. -/
inductive Move (α : Type) where
  /-- A job is added. -/
  | schedule (plan : Plan) (job : Job α)
  /-- A task runs for the first time. -/
  | begin (id : Nat)
  /-- A task whose time has come takes its tick. -/
  | take (id : Nat)
  /-- A task asks for a worker. -/
  | acquire (id : Nat)
  /-- A task that has a worker fires its job. -/
  | fire (id : Nat)
  /-- A job is done. -/
  | finish (id : Nat)
  /-- A task stops because the scheduler does. -/
  | stop (id : Nat)
  /-- Time passes. -/
  | clock (now : Nat)
  /-- Tasks are asked to stop. -/
  | cancel
  /-- No more jobs are expected. -/
  | close
  deriving DecidableEq, Inhabited, Repr

/-- A task runs for the first time: a recurring or delayed one begins to wait, a firing begins its
    work. A recurring job without a period is given up; the first tick comes after the whole period,
    however long it is. -/
def begin (s : Scheduler α) (t : Task α) : Scheduler α :=
  match t.plan with
  | .every period =>
    let s := s.record (.noted (.scheduling t.job.name period))
    if period = 0 then s.erase t.id
    else s.put { t with phase := .waiting, due := s.now + period }
  | .after delay => s.put { t with phase := .waiting, due := s.now + waitFor delay }
  | .now => s.beginWork t

/-- A task takes the tick that is due. -/
def take (s : Scheduler α) (t : Task α) : Scheduler α :=
  match t.plan with
  | .every period => s.put { t with phase := .wanting, due := nextTick period t.due s.now }
  | _ => s.put { t with phase := .wanting }

/-- A task takes a free worker or joins the line. -/
def acquire (s : Scheduler α) (t : Task α) : Scheduler α :=
  if 0 < s.free then { s.put { t with phase := .granted } with free := s.free - 1 }
  else s.put { t with phase := .queued }

/-- A task that has a worker fires: a recurring one hands the worker on to a firing and waits for its
    next tick, a delayed one begins its work. -/
def fire (s : Scheduler α) (t : Task α) : Scheduler α :=
  match t.plan with
  | .every _ => (s.spawn .now t.job).put { t with phase := .waiting }
  | _ => (s.record (.noted (.runningOnce t.job.name))).beginWork t

/-- A job is done and its worker is given back. -/
def finish (s : Scheduler α) (t : Task α) : Scheduler α :=
  ((s.record (.finished t.job)).erase t.id).release

/-- A task stops. A worker that it was given is given back. -/
def stop (s : Scheduler α) (t : Task α) : Scheduler α :=
  let s := match t.plan with
    | .every _ => s.record (.noted (.stoppedScheduling t.job.name))
    | _ => s
  let s := s.erase t.id
  if t.phase = .granted then s.release else s

/-- Lets the task of a number make a step that it can make only if `allowed`. -/
def onTask? (s : Scheduler α) (id : Nat) (allowed : Task α → Bool)
    (step : Scheduler α → Task α → Scheduler α) : Option (Scheduler α) :=
  match s.find? id with
  | some t => if allowed t then some (step s t) else none
  | none => none

/-- Makes a move, if it can be made. -/
def step? (s : Scheduler α) : Move α → Option (Scheduler α)
  | .schedule plan job => some (s.spawn plan job)
  | .begin id => s.onTask? id (·.phase = .fresh) begin
  | .take id => s.onTask? id (fun t => t.phase = .waiting ∧ t.due ≤ s.now) take
  | .acquire id => s.onTask? id (·.phase = .wanting) acquire
  | .fire id => s.onTask? id (·.phase = .granted) fire
  | .finish id => s.onTask? id (fun t => t.phase = .working ∧ t.due ≤ s.now) finish
  | .stop id => s.onTask? id (fun t => s.stopping ∧ t.phase.heedsStop) stop
  | .clock now => if s.now ≤ now then some { s with now } else none
  | .cancel => some { s with stopping := true }
  | .close => some { s with closed := true }

end Scheduler

end RingOverlay
