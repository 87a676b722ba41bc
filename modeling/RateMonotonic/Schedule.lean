/-
**The schedule**: the tasks' records, the ready queue and the slot.

At most one task holds the slot.  Evaluating the schedule looks at the head of the ready queue: a
free slot is granted to it, and a holder with a longer period loses the slot to it.  A grant has
two phases: it is decided here, and confirmed after the holder's priority has been raised, unless
the slot was lost in between.

Main definitions:
* `Schedule` — the records, the queue, the slot, and whether all has been stopped;
* `Schedule.release` — a sleeping task becomes ready;
* `Schedule.evaluate` — who gets the slot, as a `Decision`;
* `Schedule.confirm` — the second phase of a grant;
* `Schedule.endJob` — a task hands back the rest of its period;
* `Schedule.withdraw`, `Schedule.stop` — a task, or everything, leaves.

Main results:
* `Schedule.evaluate_of_stopped`, `Schedule.confirm_of_stopped` — a stopped schedule stays as it is;
* `Schedule.release_unknown`, `Schedule.release_of_not_sleeping` — the releases without effect;
* `Schedule.endJob_of_not_inProgress` — the yields without effect.
-/

import RateMonotonic.Error
import RateMonotonic.ReadyQueue
import RateMonotonic.Table

set_option relaxedAutoImplicit false
set_option autoImplicit false

namespace RateMonotonic

/-- What a release did to its task. -/
inductive ReleaseOutcome where
  /-- The task was sleeping and is now ready. -/
  | released
  /-- There is no such task. -/
  | unknown
  /-- The task was not sleeping; nothing changed. -/
  | ignored (state : TaskState)
deriving DecidableEq, Repr

/-- Who has the slot after an evaluation. -/
inductive Decision where
  /-- Nobody wants the slot. -/
  | idle
  /-- The holder keeps it over the head of the queue. -/
  | keep (running head : TaskId)
  /-- The slot was free and a task took it. -/
  | grant (task : TaskId) (handle : ExecHandle)
  /-- The holder lost it to a task with a shorter period. -/
  | preempt (preempted : TaskId) (preemptedHandle : ExecHandle) (task : TaskId)
      (handle : ExecHandle)
deriving DecidableEq, Repr

/-- What a yield did to its task. -/
inductive YieldOutcome where
  /-- The task sleeps for this long. -/
  | sleeping (remaining : Duration)
  /-- Its boundary had passed; its next job is queued. -/
  | requeued
  /-- It had no job in progress; nothing changed. -/
  | notRunning (state : TaskState)
deriving DecidableEq, Repr

/-- A yield with what remains to be done for it outside the schedule. -/
structure YieldResult where
  /-- What the yield did. -/
  outcome : YieldOutcome
  /-- The execution context behind the task. -/
  handle : ExecHandle
  /-- The release timer to arm. -/
  armAt : Option Instant
  /-- Whether the task held the slot. -/
  freedSlot : Bool
deriving DecidableEq, Repr

/-- The tasks' records, the ready queue and the slot. -/
structure Schedule where
  /-- The record of every task. -/
  tasks : Table TaskId Task
  /-- The ready tasks. -/
  ready : ReadyQueue
  /-- The task that holds the slot. -/
  current : Option TaskId
  /-- Whether scheduling has ended for good. -/
  stopped : Bool

namespace Schedule

/-- The schedule without tasks. -/
def empty : Schedule := ⟨Table.empty, ReadyQueue.empty, none, false⟩

instance : Inhabited Schedule := ⟨empty⟩

/-- The record of a task. -/
def task? (s : Schedule) (id : TaskId) : Option Task := s.tasks.get? id

/-- Store a task's record. -/
def put (s : Schedule) (t : Task) : Schedule := { s with tasks := s.tasks.insert t.id t }

/-- The number of tasks that are running. -/
def runningCount (s : Schedule) : Nat :=
  (s.tasks.values.filter (·.state = .running)).length

/-! ### Releases -/

/-- A sleeping task becomes ready; any other is left alone. -/
def release (s : Schedule) (id : TaskId) : ReleaseOutcome × Schedule :=
  match s.task? id with
  | none => (.unknown, s)
  | some t =>
      if t.state = .sleeping then
        (.released,
          { s with
            tasks := s.tasks.insert id t.release
            ready := s.ready.insert id t.period })
      else (.ignored t.state, s)

/-! ### The slot -/

/-- Give the slot to a queued task.  Without a record the task only leaves the queue. -/
def grant (s : Schedule) (id : TaskId) : Option ExecHandle × Schedule :=
  let queue := s.ready.remove id
  match s.task? id with
  | none => (none, { s with ready := queue })
  | some t =>
      (some t.handle,
        { s with ready := queue, tasks := s.tasks.insert id t.grant, current := some id })

/-- The record of the slot's holder. -/
def holder? (s : Schedule) : Option (TaskId × Task) :=
  s.current.bind fun id => (s.task? id).map fun t => (id, t)

/-- Give the free slot to the head of the queue. -/
def fillSlot (s : Schedule) (head : TaskId) : Decision × Schedule :=
  match ({ s with current := none } : Schedule).grant head with
  | (some handle, next) => (.grant head handle, next)
  | (none, next) => (.idle, next)

/-- Take the slot from its holder and give it to the head of the queue; the holder's job goes to
the front of its period. -/
def preemptFor (s : Schedule) (running : TaskId) (t : Task) (head : TaskId) :
    Decision × Schedule :=
  let demoted : Schedule :=
    { s with tasks := s.tasks.insert running t.preempt, current := none }
  -- The head leaves the queue before the holder joins it: the two never compete for the front.
  let (granted, next) := demoted.grant head
  let queued := { next with ready := next.ready.insertFront running t.period }
  match granted with
  | some handle => (.preempt running t.handle head handle, queued)
  | none => (.idle, queued)

/-- Decide who has the slot: the head of the queue if the slot is free or its holder has a longer
period. -/
def evaluate (s : Schedule) : Decision × Schedule :=
  if s.stopped then (.idle, s)
  else
    match s.ready.head? with
    | none => (.idle, s)
    | some (head, headPeriod) =>
        match s.holder? with
        | none => s.fillSlot head
        | some (running, t) =>
            -- Equal periods do not preempt: the holder was dispatched first.
            if headPeriod < t.period then s.preemptFor running t head
            else (.keep running head, s)

/-- The second phase of a grant: the task goes on if it still holds the slot. -/
def confirm (s : Schedule) (id : TaskId) : Bool × Schedule :=
  if s.stopped ∨ s.current ≠ some id then (false, s)
  else
    match s.task? id with
    | none => (false, s)
    | some t =>
        if t.state = .running then
          (true, { s with tasks := s.tasks.insert id t.resume })
        else (false, s)

/-! ### Ending a job -/

/-- Whether a task holds the slot. -/
def holdsSlot (s : Schedule) (id : TaskId) : Bool := decide (s.current = some id)

/-- Whether a task with this record has a job in progress: it holds the slot, or it lost the slot to
another. -/
def inProgress (s : Schedule) (id : TaskId) (t : Task) : Bool :=
  match t.state with
  | .running => s.holdsSlot id
  | .ready => !t.jobPending
  | .sleeping => false

/-- The slot without a task. -/
def slotWithout (s : Schedule) (id : TaskId) : Option TaskId :=
  if s.holdsSlot id then none else s.current

/-- A task ends its job: it sleeps until its boundary, or its next job is queued at once if the
boundary has passed.  Without a job in progress nothing changes. -/
def endJob (s : Schedule) (id : TaskId) (now : Instant) :
    Except SchedError (YieldResult × Schedule) :=
  match s.task? id with
  | none => .error (.notFound id)
  | some t =>
      if s.inProgress id t then
        -- A job that lost the slot still stands in the queue.
        let queue := s.ready.remove id
        match t.timeToRelease now with
        | some remaining =>
            .ok
              (⟨.sleeping remaining, t.handle, some t.nextRelease, s.holdsSlot id⟩,
                { s with
                  tasks := s.tasks.insert id t.sleep
                  ready := queue
                  current := s.slotWithout id })
        | none =>
            .ok
              (⟨.requeued, t.handle, none, s.holdsSlot id⟩,
                { s with
                  tasks := s.tasks.insert id t.requeue
                  ready := queue.insert id t.period
                  current := s.slotWithout id })
      else .ok (⟨.notRunning t.state, t.handle, none, false⟩, s)

/-! ### Leaving -/

/-- Take a task out of the records, the queue and the slot; tells whether it held the slot. -/
def withdraw (s : Schedule) (id : TaskId) : Bool × Schedule :=
  (s.holdsSlot id,
    { s with
      tasks := s.tasks.erase id
      ready := s.ready.remove id
      current := s.slotWithout id })

/-- End scheduling for good; tells the handle of the slot's holder. -/
def stop (s : Schedule) : Option ExecHandle × Schedule :=
  (s.holder?.map fun h => h.2.handle, { s with current := none, stopped := true })

/-! ### Steps without effect -/

theorem evaluate_of_stopped {s : Schedule} (h : s.stopped = true) : s.evaluate = (.idle, s) := by
  simp [evaluate, h]

theorem confirm_of_stopped {s : Schedule} (h : s.stopped = true) (id : TaskId) :
    s.confirm id = (false, s) := by
  simp [confirm, h]

theorem release_unknown {s : Schedule} {id : TaskId} (h : s.task? id = none) :
    s.release id = (.unknown, s) := by
  simp [release, h]

theorem release_of_not_sleeping {s : Schedule} {id : TaskId} {t : Task}
    (ht : s.task? id = some t) (h : t.state ≠ .sleeping) :
    s.release id = (.ignored t.state, s) := by
  simp [release, ht, h]

theorem endJob_of_not_inProgress {s : Schedule} {id : TaskId} {t : Task}
    (ht : s.task? id = some t) (h : s.inProgress id t = false) (now : Instant) :
    s.endJob id now = .ok (⟨.notRunning t.state, t.handle, none, false⟩, s) := by
  simp [endJob, ht, h]

end Schedule

end RateMonotonic
