/-
**The operations of the scheduler**, each as one uninterrupted step.

An operation gives its answer and the state after it.  A refused operation lets go of the registry
and leaves everything else alone.

Main definitions:
* `Reply` — the answers;
* `Scheduler.register`, `Scheduler.deregister`, `Scheduler.beginYield` — tasks come, go, and end
  their jobs;
* `Scheduler.start`, `Scheduler.stop` — the dispatcher loop;
* `Scheduler.release`, `Scheduler.dispatch` — a release, and a round of the dispatcher, by hand;
* `Call`, `Scheduler.perform` — any of them.

Main results:
* `Scheduler.stop_of_stopRequested` — a second stop does nothing.
-/

import RateMonotonic.Scheduler

set_option relaxedAutoImplicit false
set_option autoImplicit false

namespace RateMonotonic

/-- The answer of an operation that was not refused. -/
inductive Reply where
  | done
  | registered (id : TaskId)
  | deregistered (id : TaskId)
  | yielded (id : TaskId) (outcome : YieldOutcome)
  /-- The registered tasks, in order. -/
  | listed (tasks : List TaskInfo)
deriving DecidableEq, Repr

/-- An answer: a reply, or why the operation was refused. -/
abbrev Answer := Except SchedError Reply

namespace Scheduler

/-- Register a task: it is admitted if its timing can be served, if nobody has its number, if it fits
beside the others and if it is alive.  It sleeps until its first release. -/
def register (s : Scheduler) (resolver : Resolver) (now : Instant) (t : TaskInfo) :
    Answer × Scheduler :=
  match s.checkTiming now t with
  | .error e => (.error e, s)
  | .ok first =>
      match s.enter with
      | .error e => (.error e, s)
      | .ok inside =>
          match inside.checkCandidate t with
          | .error e => (.error e, inside.leave)
          | .ok () =>
              match resolve resolver t.id with
              | .error e => (.error e, inside.leave)
              | .ok handle =>
                  match inside.enroll ⟨t, handle⟩ first with
                  | .error e => (.error e, inside.leave)
                  | .ok enrolled => (.ok (.registered t.id), (enrolled.arm t.id first).leave)

/-- Deregister a task: it leaves the timers, the schedule and the registry, and its priority is reset
if it held the slot. -/
def deregister (s : Scheduler) (id : TaskId) : Answer × Scheduler :=
  match s.enterFor id with
  | .error e => (.error e, s)
  | .ok inside =>
      let (held, withdrawn) := (inside.cancel id).withdraw id
      match withdrawn.strike id with
      | .error e => (.error e, withdrawn.leave)
      | .ok (entry, outside) =>
          (.ok (.deregistered id),
            (if held then outside.reset entry.handle else outside).post (.deregistered id))

/-- Whether a yield ended a job. -/
def endedJob : YieldOutcome → Bool
  | .notRunning _ => false
  | _ => true

/-- End a task's job: it sleeps with its release timer armed, or its next job is queued.  Its
priority is reset if it held the slot. -/
def beginYield (s : Scheduler) (now : Instant) (id : TaskId) : Answer × Scheduler :=
  match s.enterFor id with
  | .error e => (.error e, s)
  | .ok inside =>
      match inside.endJob id now with
      | .error e => (.error e, inside.leave)
      | .ok (y, ended) =>
          -- The timer is armed while the registry is held, so whoever deregisters the task next
          -- finds it and cancels it.
          let outside := (ended.armAt id y.armAt).leave
          let demoted := if y.freedSlot then outside.reset y.handle else outside
          (.ok (.yielded id y.outcome),
            if endedJob y.outcome then demoted.post (.yielded id) else demoted)

/-- Start the dispatcher loop, unless it has been started. -/
def start (s : Scheduler) : Answer × Scheduler :=
  if s.stopRequested then (.error .stopped, s)
  else if s.joinable then (.ok .done, s)
  else (.ok .done, { s with joinable := true, loop := .waiting }.post .started)

/-- A loop that waits takes one more wake and ends. -/
def endLoop (s : Scheduler) : Scheduler :=
  if s.joinable then
    { s with
      joinable := false
      loop := .ended
      wakes := (s.wakes.take?.map (·.2)).getD s.wakes }
  else s

/-- Stop for good: nobody holds the slot any more, the loop ends, no timer is left, and the priority
of the slot's holder is reset. -/
def stop (s : Scheduler) : Scheduler :=
  if s.stopRequested then s
  else
    let (holder, halted) := ({ s with stopRequested := true } : Scheduler).halt
    -- The handle was noted before the slot was emptied; it is reset when nobody can grant again.
    let shut := (halted.post .stopped).endLoop.shutTimers
    match holder with
    | some handle => shut.reset handle
    | none => shut

/-- Release a task as its timer does: the dispatcher is woken if the task was sleeping. -/
def release (s : Scheduler) (id : TaskId) : Scheduler :=
  match s.releaseTask id with
  | (.released, next) => next.post (.released id)
  | (_, next) => next

/-- A round of the dispatcher. -/
def dispatch (s : Scheduler) : Scheduler := { s with dispatcher := s.dispatcher.dispatch.2 }

end Scheduler

/-- A call of an operation. -/
inductive Call where
  | register (t : TaskInfo)
  | deregister (id : TaskId)
  | beginYield (id : TaskId)
  | start
  | stop
  /-- Release a task by hand. -/
  | release (id : TaskId)
  /-- Let the dispatcher take a round by hand. -/
  | dispatch
deriving DecidableEq, Repr

namespace Scheduler

/-- Perform a call. -/
def perform (s : Scheduler) (resolver : Resolver) (now : Instant) : Call → Answer × Scheduler
  | .register t => s.register resolver now t
  | .deregister id => s.deregister id
  | .beginYield id => s.beginYield now id
  | .start => s.start
  | .stop => (.ok .done, s.stop)
  | .release id => (.ok .done, s.release id)
  | .dispatch => (.ok .done, s.dispatch)

/-! ### Calls without effect -/

theorem stop_of_stopRequested {s : Scheduler} (h : s.stopRequested = true) : s.stop = s := by
  simp [stop, h]

end Scheduler

end RateMonotonic
