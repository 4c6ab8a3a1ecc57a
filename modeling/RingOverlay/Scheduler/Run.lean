import RingOverlay.Scheduler.Basic

/-!
# `RingOverlay.Scheduler.Run` — running a scheduler

Between two moments of the clock every task makes the moves that it can make. A task that has begun to
move goes on until it has to wait; of several tasks the one that has kept its phase longest is first.

## Contents
- **One moment.** `Task.move?`, `next?`, `settle`.
- **Time.** `nextDue?`, `runUntil`, `pass`.
- **Use.** `schedule`, `cancel`, `shutdown`, `takeHistory`.
-/

namespace RingOverlay.Scheduler

variable {α : Type}

/-! ## One moment -/

/-- The move that a task makes next, if it does not have to wait. A request to stop comes first. -/
def move? (s : Scheduler α) (t : Task α) : Option (Move α) :=
  if s.stopping && t.phase.heedsStop then some (.stop t.id)
  else
    match t.phase with
    | .fresh => some (.begin t.id)
    | .waiting => if t.due ≤ s.now then some (.take t.id) else none
    | .wanting => some (.acquire t.id)
    | .queued => none
    | .granted => some (.fire t.id)
    | .working => if t.due ≤ s.now then some (.finish t.id) else none

/-- The next move: of the task that moved last if it can go on, else of the first one that can. The
    number of the task is returned too. -/
def next? (s : Scheduler α) (last : Nat) : Option (Nat × Move α) :=
  let ofTask (t : Task α) := (s.move? t).map fun m => (t.id, m)
  ((s.find? last).bind ofTask).or (s.tasks.findSome? ofTask)

/-- Makes at most `fuel` moves. -/
def settleFrom (last : Nat) : Nat → Scheduler α → Scheduler α
  | 0, s => s
  | fuel + 1, s =>
    match s.next? last with
    | none => s
    | some (id, m) =>
      match s.step? m with
      | none => s
      | some s' => settleFrom id fuel s'

/-- A number of moves that tasks cannot exceed while the clock stands still: each tick that has come
    due costs at most six, and a task makes a few more. -/
def effort (s : Scheduler α) : Nat :=
  s.tasks.foldl (fun n t => n + (6 * (s.now + 2 - t.due) + 8)) 0

/-- Lets tasks move until all of them have to wait. -/
def settle (s : Scheduler α) : Scheduler α := settleFrom s.nextId s.effort s

/-! ## Time -/

/-- The next time at which a task has something to do, if nothing else happens. -/
def nextDue? (s : Scheduler α) : Option Nat :=
  ((s.tasks.filter fun t => t.phase = .waiting ∨ t.phase = .working).map (·.due)).min?

/-- Moves the clock to `now`, if that is not in the past, and lets tasks move. -/
def settleAt (now : Nat) (s : Scheduler α) : Scheduler α :=
  ((s.step? (.clock now)).getD s).settle

/-- Moves the clock on to `target` in at most `fuel` leaps, from one due time to the next. -/
def runUntilIn (target : Nat) : Nat → Scheduler α → Scheduler α
  | 0, s => s.settleAt target
  | fuel + 1, s =>
    match s.nextDue?.filter (· ≤ target) with
    | none => s.settleAt target
    | some due => runUntilIn target fuel (s.settleAt due)

/-- Moves the clock on to `target`. Each leap takes at least a millisecond. -/
def runUntil (target : Nat) (s : Scheduler α) : Scheduler α :=
  runUntilIn target (target - s.now) s

/-- Lets a wait for `ms` milliseconds pass. -/
def pass (ms : Nat) (s : Scheduler α) : Scheduler α := runUntil (s.now + waitFor ms) s

/-! ## Use -/

/-- Adds a job. -/
def schedule (s : Scheduler α) (plan : Plan) (job : Job α) : Scheduler α :=
  (s.spawn plan job).settle

/-- Asks tasks to stop. Work that has begun goes on. -/
def cancel (s : Scheduler α) : Scheduler α := { s with stopping := true }.settle

/-- Whether jobs still fire. -/
def isRunning (s : Scheduler α) : Bool := !s.stopping

/-- Waits until no task is left, over at most `fuel` due times. -/
def drain : Nat → Scheduler α → Scheduler α
  | 0, s => s
  | fuel + 1, s =>
    match s.nextDue? with
    | none => s
    | some due => drain fuel (s.settleAt due)

/-- Stops all tasks and waits for those at work. Each due time ends at least one of them. -/
def shutdown (s : Scheduler α) : Scheduler α :=
  if s.stopping && s.closed && s.tasks.isEmpty then s
  else
    let s := s.record (.noted (.stoppingScheduler s.tasks.length))
    let s := { s with stopping := true, closed := true }.settle
    s.drain s.tasks.length

/-- What happened since the last time that this was asked, the oldest first. -/
def takeHistory (s : Scheduler α) : List (Nat × Happening α) × Scheduler α :=
  (s.history.reverse, { s with history := [] })

end RingOverlay.Scheduler
