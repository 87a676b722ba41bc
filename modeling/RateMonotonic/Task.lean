/-
**Periodic tasks**: what a task is, and what its release, its grant and its preemption do to it.

A task releases one job per period.  `Task.nextRelease` is the boundary at which its next period
starts; it moves on by exactly one period when a job is dispatched for the first time, so boundaries
never drift with the time it takes to dispatch.

Main definitions:
* `TaskId`, `ExecHandle` — a task's number and the number of the execution context behind it;
* `TaskState` — sleeping, ready or running;
* `TaskInfo` — what a task was registered with;
* `Task` — a task's scheduling record, with `Task.release`, `Task.grant` and `Task.preempt`;
* `Task.timeToRelease` — the time left until the next boundary.
-/

import RateMonotonic.Time.Instant

set_option relaxedAutoImplicit false
set_option autoImplicit false

namespace RateMonotonic

/-- The number that names a task. -/
structure TaskId where
  number : UInt32
deriving DecidableEq, Repr, Inhabited

/-- The number of the execution context that runs a task. -/
structure ExecHandle where
  number : UInt32
deriving DecidableEq, Repr, Inhabited

/-- A task's number in decimal. -/
def TaskId.text (id : TaskId) : String := Decimal.text id.number.toNat

/-- A handle's number behind its kind. -/
def ExecHandle.text (h : ExecHandle) : String := "handle#" ++ Decimal.text h.number.toNat

/-- Where a registered task stands. -/
inductive TaskState where
  /-- Waiting for its next release. -/
  | sleeping
  /-- Released, and queued for the slot. -/
  | ready
  /-- Holding the slot. -/
  | running
deriving DecidableEq, Repr, Inhabited

/-- The word for a state in messages. -/
def TaskState.text : TaskState → String
  | .sleeping => "sleeping"
  | .ready => "ready"
  | .running => "running"

/-- What a task was registered with. -/
structure TaskInfo where
  /-- The task's number. -/
  id : TaskId
  /-- The time between two releases. -/
  period : Duration
  /-- The processor time it asks for in each period. -/
  budget : Duration
deriving DecidableEq, Repr, Inhabited

/-- A task's scheduling record. -/
structure Task where
  id : TaskId
  handle : ExecHandle
  period : Duration
  budget : Duration
  state : TaskState
  /-- The boundary at which its next period starts. -/
  nextRelease : Instant
  /-- Whether a released job has not been dispatched yet. -/
  jobPending : Bool
  /-- Whether its grant has been confirmed, with the priority raised. -/
  resumed : Bool
deriving DecidableEq, Repr, Inhabited

namespace Task

/-- A task that sleeps until its first release. -/
def sleepingUntil (id : TaskId) (handle : ExecHandle) (period budget : Duration)
    (first : Instant) : Task where
  id := id
  handle := handle
  period := period
  budget := budget
  state := .sleeping
  nextRelease := first
  jobPending := false
  resumed := false

/-- A new job is released. -/
def release (t : Task) : Task := { t with state := .ready, jobPending := true }

/-- The boundary after the next one, or the same one where the clock ends. -/
def boundaryAfter (t : Task) : Instant := (t.nextRelease.add? t.period).getD t.nextRelease

/-- The task takes the slot.  The boundary moves on by one period if this is the first time that
the job runs. -/
def grant (t : Task) : Task :=
  if t.jobPending then
    { t with
      state := .running
      resumed := false
      nextRelease := t.boundaryAfter
      jobPending := false }
  else { t with state := .running, resumed := false }

/-- The task loses the slot; its job goes on later, so the boundary stays. -/
def preempt (t : Task) : Task := { t with state := .ready, resumed := false }

/-- The granted task goes on, its priority raised. -/
def resume (t : Task) : Task := { t with resumed := true }

/-- The job ends before the boundary; the task waits for it. -/
def sleep (t : Task) : Task := { t with state := .sleeping, resumed := false }

/-- The job ends after the boundary; the next one is released at once. -/
def requeue (t : Task) : Task := { t with state := .ready, jobPending := true, resumed := false }

/-- The time left until the next boundary, if it is still to come. -/
def timeToRelease (t : Task) (now : Instant) : Option Duration := now.timeTo? t.nextRelease

/-- What the task was registered with. -/
def info (t : Task) : TaskInfo := ⟨t.id, t.period, t.budget⟩

/-! ### What the steps leave alone -/

@[simp] theorem info_release (t : Task) : t.release.info = t.info := rfl

@[simp] theorem info_preempt (t : Task) : t.preempt.info = t.info := rfl

@[simp] theorem info_grant (t : Task) : t.grant.info = t.info := by
  unfold grant
  split <;> rfl

@[simp] theorem handle_release (t : Task) : t.release.handle = t.handle := rfl

@[simp] theorem handle_preempt (t : Task) : t.preempt.handle = t.handle := rfl

@[simp] theorem period_grant (t : Task) : t.grant.period = t.period := by
  unfold grant
  split <;> rfl

@[simp] theorem handle_grant (t : Task) : t.grant.handle = t.handle := by
  unfold grant
  split <;> rfl

@[simp] theorem nextRelease_release (t : Task) : t.release.nextRelease = t.nextRelease := rfl

@[simp] theorem nextRelease_preempt (t : Task) : t.preempt.nextRelease = t.nextRelease := rfl

/-- **Only the first dispatch of a job moves the boundary.** -/
theorem nextRelease_grant (t : Task) :
    t.grant.nextRelease = if t.jobPending then t.boundaryAfter else t.nextRelease := by
  unfold grant
  split <;> rfl

@[simp] theorem state_grant (t : Task) : t.grant.state = .running := by
  unfold grant
  split <;> rfl

@[simp] theorem jobPending_grant (t : Task) : t.grant.jobPending = false := by
  unfold grant
  split <;> simp_all

@[simp] theorem resumed_grant (t : Task) : t.grant.resumed = false := by
  unfold grant
  split <;> rfl

end Task

end RateMonotonic
