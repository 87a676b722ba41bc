/-
**The two threads of the scheduler**: the dispatcher loop and the timer worker, step by step.

The loop takes a wake, ends if it is to stop, and otherwise evaluates the schedule and carries the
decision out.  The worker takes a due timer, releases its task, and wakes the dispatcher.

Main definitions:
* `Scheduler.loopStep`, `Scheduler.workerStep` — the next step of either, if it can take one;
* `Scheduler.settle` — both threads step until neither can.
-/

import RateMonotonic.Scheduler

set_option relaxedAutoImplicit false
set_option autoImplicit false

namespace RateMonotonic.Scheduler

/-- What the loop does after a decision. -/
def loopAfter : Option Round → LoopState
  | none => .waiting
  | some r => .applying r

/-- The next step of the dispatcher loop.  It cannot take one where it waits for a wake. -/
def loopStep (s : Scheduler) : Option Scheduler :=
  match s.loop with
  | .absent => none
  | .ended => none
  | .waiting =>
      match s.wakes.take? with
      | none => none
      | some (wake, rest) =>
          some { s with wakes := rest, loop := if wake = .stopped then .ended else .woken }
  -- The wake may be older than the request to stop.
  | .woken => some { s with loop := if s.stopRequested then .ended else .cleared }
  | .cleared =>
      let (decision, next) := s.dispatcher.evaluate
      some { s with dispatcher := next, loop := loopAfter (Round.ofDecision decision) }
  | .applying r =>
      let (next, rest) := r.step s.dispatcher
      some { s with dispatcher := next, loop := loopAfter rest }

/-- The next step of the timer worker.  It cannot take one where no timer is due. -/
def workerStep (s : Scheduler) (now : Instant) : Option Scheduler :=
  match s.worker with
  | .idle =>
      match s.timers.poll now with
      | (none, _) => none
      | (some id, timers) => some { s with timers := timers, worker := .releasing id }
  | .releasing id =>
      match s.releaseTask id with
      -- A task that is gone, or does not sleep, needs no dispatcher.
      | (.released, next) => some { next with worker := .announcing id }
      | (_, next) => some { next with worker := .finishing }
  | .announcing id => some { s.post (.released id) with worker := .finishing }
  | .finishing => some { s with timers := s.timers.finish, worker := .idle }

/-- At most this many steps of the worker, and of the loop where the worker cannot step. -/
def stepThreads (now : Instant) : Nat → Scheduler → Scheduler
  | 0, s => s
  | n + 1, s =>
      match s.workerStep now with
      | some next => stepThreads now n next
      | none =>
          match s.loopStep with
          | some next => stepThreads now n next
          | none => s

/-- A bound on the steps that both threads can take: four for a timer, seven for a wake, and those
that they have begun. -/
def stepBound (s : Scheduler) : Nat :=
  11 * s.timers.pendingCount + 7 * s.wakes.waiting.length + 20

/-- Both threads step until neither can. -/
def settle (s : Scheduler) (now : Instant) : Scheduler := stepThreads now s.stepBound s

end RateMonotonic.Scheduler
