/-
**Calls in progress**: the operations of the scheduler, section by section.

Between two sections of a call other threads may run, so what remains of a call is a value of its
own.  A step performs the next section; a step that has to wait for another thread cannot be taken.
An operation that finds the registry held is refused, as after a wait that was too long.

Main definitions:
* `Activity` — what remains of a call;
* `Activity.step` — its next section;
* `Activity.Outside`, `Activity.outside?` — the calls to the platform among the sections;
* `Activity.run` — the sections one after the other.

Main results:
* `Activity.run_register`, `Activity.run_beginYield`, `Activity.run_deregister` and others — the
  sections of a call, taken in a row, are the operation.
-/

import RateMonotonic.Scheduler.Operation

set_option relaxedAutoImplicit false
set_option autoImplicit false

namespace RateMonotonic

/-- What remains of a call. -/
inductive Activity where
  /-- The whole call. -/
  | call (c : Call)
  /-- Find the handle of a task that may be registered; the registry is held. -/
  | resolve (t : TaskInfo) (first : Instant)
  /-- Take the task into registry and schedule; the registry is held. -/
  | enroll (e : RegistryEntry) (first : Instant)
  /-- Arm the task's first release; the registry is held. -/
  | armFirst (id : TaskId) (first : Instant)
  /-- Cancel the task's release timer; the registry is held. -/
  | cancel (id : TaskId)
  /-- Wait for the task's callback to end; the registry is held. -/
  | awaitCallback (id : TaskId)
  /-- Take the task out of the schedule; the registry is held. -/
  | withdraw (id : TaskId)
  /-- Take the task out of the registry, which is held. -/
  | strike (id : TaskId) (freedSlot : Bool)
  /-- End the task's job; the registry is held. -/
  | endJob (id : TaskId)
  /-- Arm the task's next release; the registry is held. -/
  | armNext (id : TaskId) (y : YieldResult)
  /-- Start the loop. -/
  | startLoop
  /-- End all scheduling. -/
  | halt
  /-- Wait for the loop to end. -/
  | join (rest : Activity)
  /-- Shut the timers down. -/
  | shutTimers (rest : Activity)
  /-- Wait for the timer worker. -/
  | awaitWorker (rest : Activity)
  /-- Carry out a decision. -/
  | round (r : Round)
  /-- Reset a handle. -/
  | reset (handle : ExecHandle) (rest : Activity)
  /-- Wake the dispatcher. -/
  | post (wake : Wake) (rest : Activity)
  /-- The call has been answered. -/
  | answered (a : Answer)
deriving Repr

namespace Activity

/-- The call has been answered in the positive. -/
def finished : Activity := .answered (.ok .done)

/-- Do something first, if there is something to be done. -/
def after {α : Type} (first : α → Activity → Activity) : Option α → Activity → Activity
  | none, rest => rest
  | some a, rest => first a rest

/-- The first section of a call. -/
def begin (s : Scheduler) (now : Instant) : Call → Scheduler × Activity
  | .register t =>
      match s.checkTiming now t with
      | .error e => (s, .answered (.error e))
      | .ok first =>
          match s.enter with
          | .error e => (s, .answered (.error e))
          | .ok inside =>
              match inside.checkCandidate t with
              | .error e => (inside.leave, .answered (.error e))
              | .ok () => (inside, .resolve t first)
  | .deregister id =>
      match s.enterFor id with
      | .error e => (s, .answered (.error e))
      | .ok inside => (inside, .cancel id)
  | .beginYield id =>
      match s.enterFor id with
      | .error e => (s, .answered (.error e))
      | .ok inside => (inside, .endJob id)
  | .start => if s.stopRequested then (s, .answered (.error .stopped)) else (s, .startLoop)
  -- Only the first stop goes on; the others are over at once, even before it is.
  | .stop => if s.stopRequested then (s, finished) else ({ s with stopRequested := true }, .halt)
  | .release id =>
      match s.releaseTask id with
      | (.released, next) => (next, .post (.released id) finished)
      | (_, next) => (next, finished)
  | .dispatch =>
      let (decision, next) := s.dispatcher.evaluate
      ({ s with dispatcher := next }, after (fun r _ => .round r) (Round.ofDecision decision) finished)

/-- What remains of a yield after its timer has been armed. -/
def afterYield (id : TaskId) (y : YieldResult) : Activity :=
  let last := Activity.answered (.ok (.yielded id y.outcome))
  let announced := if Scheduler.endedJob y.outcome then .post (.yielded id) last else last
  if y.freedSlot then .reset y.handle announced else announced

/-- The next section of a call.  A call that has been answered, or that has to wait for another
thread, takes no step. -/
def step (s : Scheduler) (resolver : Resolver) (now : Instant) : Activity → Option (Scheduler × Activity)
  | .call c => some (begin s now c)
  | .resolve t first =>
      match Scheduler.resolve resolver t.id with
      | .error e => some (s.leave, .answered (.error e))
      | .ok handle => some (s, .enroll ⟨t, handle⟩ first)
  | .enroll e first =>
      match s.enroll e first with
      | .error err => some (s.leave, .answered (.error err))
      | .ok enrolled => some (enrolled, .armFirst e.info.id first)
  | .armFirst id first => some ((s.arm id first).leave, .answered (.ok (.registered id)))
  -- A callback that has begun may still release the task; after the wait no more can.
  | .cancel id => some (s.cancel id, .awaitCallback id)
  | .awaitCallback id => if s.timers.cancelMayReturn id then some (s, .withdraw id) else none
  | .withdraw id =>
      let (held, withdrawn) := s.withdraw id
      some (withdrawn, .strike id held)
  | .strike id freedSlot =>
      match s.strike id with
      | .error e => some (s.leave, .answered (.error e))
      | .ok (entry, outside) =>
          -- The registry is free again before the priority is reset.
          let announced := Activity.post (.deregistered id) (.answered (.ok (.deregistered id)))
          some (outside, if freedSlot then .reset entry.handle announced else announced)
  | .endJob id =>
      match s.endJob id now with
      | .error e => some (s.leave, .answered (.error e))
      | .ok (y, ended) => some (ended, .armNext id y)
  | .armNext id y => some ((s.armAt id y.armAt).leave, afterYield id y)
  | .startLoop =>
      if s.joinable then some (s, finished)
      else some ({ s with joinable := true, loop := .waiting }, .post .started finished)
  | .halt =>
      let (holder, halted) := s.halt
      some (halted, .post .stopped (.join (.shutTimers (.awaitWorker (after .reset holder finished)))))
  | .join rest =>
      if !s.joinable then some (s, rest)
      else if s.loop = .ended then some ({ s with joinable := false }, rest)
      else none
  | .shutTimers rest => some (s.shutTimers, rest)
  | .awaitWorker rest => if s.worker = .idle then some (s, rest) else none
  | .round r =>
      let (next, rest) := r.step s.dispatcher
      some ({ s with dispatcher := next }, after (fun r _ => .round r) rest finished)
  | .reset handle rest => some (s.reset handle, rest)
  | .post wake rest => some (s.post wake, rest)
  | .answered _ => none

/-! ### Calls to the platform -/

/-- A call to the platform in the course of an operation. -/
inductive Outside where
  /-- The resolver is asked for a task's handle. -/
  | resolve (id : TaskId)
  /-- A handle is elevated. -/
  | elevate (handle : ExecHandle)
  /-- A handle is reset. -/
  | reset (handle : ExecHandle)
deriving DecidableEq, Repr

/-- The call to the platform that a step of a round is. -/
def roundOutside? : Round → Option Outside
  | .demote preempted _ _ => some (.reset preempted)
  | .elevate _ handle => some (.elevate handle)
  | .confirm _ _ => none
  | .undo handle => some (.reset handle)

/-- The call to the platform that the next step is. -/
def outside? : Activity → Option Outside
  | .resolve t _ => some (.resolve t.id)
  | .reset handle _ => some (.reset handle)
  | .round r => roundOutside? r
  | _ => none

/-! ### Sections in a row -/

/-- At most this many steps in a row. -/
def run (resolver : Resolver) (now : Instant) : Nat → Scheduler → Activity → Scheduler × Activity
  | 0, s, a => (s, a)
  | n + 1, s, a =>
      match a.step s resolver now with
      | none => (s, a)
      | some (next, rest) => run resolver now n next rest

@[simp] theorem run_answered (resolver : Resolver) (now : Instant) (n : Nat) (s : Scheduler)
    (a : Answer) : run resolver now n s (.answered a) = (s, .answered a) := by
  cases n <;> rfl

theorem run_call (resolver : Resolver) (now : Instant) (n : Nat) (s : Scheduler) (c : Call) :
    run resolver now (n + 1) s (.call c) = run resolver now n (begin s now c).1 (begin s now c).2 :=
  rfl

theorem run_of_step {resolver : Resolver} {now : Instant} {s : Scheduler} {a : Activity}
    (next : Scheduler) (rest : Activity) (h : a.step s resolver now = some (next, rest)) (n : Nat) :
    run resolver now (n + 1) s a = run resolver now n next rest := by
  simp [run, h]

theorem run_register (s : Scheduler) (resolver : Resolver) (now : Instant) (t : TaskInfo) :
    run resolver now 4 s (.call (.register t)) =
      ((s.register resolver now t).2, .answered (s.register resolver now t).1) := by
  rw [run_call]
  simp only [begin, Scheduler.register]
  -- Both sides branch on the same questions in the same order.
  cases s.checkTiming now t with
  | error e => simp
  | ok first =>
      dsimp only
      cases s.enter with
      | error e => simp
      | ok inside =>
          dsimp only
          cases inside.checkCandidate t with
          | error e => simp
          | ok u =>
              dsimp only
              cases hr : Scheduler.resolve resolver t.id with
              | error e =>
                  rw [run_of_step inside.leave (.answered (.error e))
                    (by simp [step, hr])]
                  simp
              | ok handle =>
                  dsimp only
                  rw [run_of_step inside (.enroll ⟨t, handle⟩ first)
                    (by simp [step, hr])]
                  cases he : inside.enroll ⟨t, handle⟩ first with
                  | error e =>
                      rw [run_of_step inside.leave (.answered (.error e))
                        (by simp [step, he])]
                      simp
                  | ok enrolled =>
                      rw [run_of_step enrolled (.armFirst t.id first)
                        (by simp [step, he])]
                      rfl

/-- What remains of a yield, in a row. -/
theorem run_afterYield (resolver : Resolver) (now : Instant) (s : Scheduler) (id : TaskId)
    (y : YieldResult) :
    run resolver now 2 s (afterYield id y) =
      (if Scheduler.endedJob y.outcome then
          (if y.freedSlot then s.reset y.handle else s).post (.yielded id)
        else if y.freedSlot then s.reset y.handle else s,
        .answered (.ok (.yielded id y.outcome))) := by
  unfold afterYield
  cases y.freedSlot <;> cases Scheduler.endedJob y.outcome <;> rfl

theorem run_beginYield (s : Scheduler) (resolver : Resolver) (now : Instant) (id : TaskId) :
    run resolver now 5 s (.call (.beginYield id)) =
      ((s.beginYield now id).2, .answered (s.beginYield now id).1) := by
  rw [run_call]
  simp only [begin, Scheduler.beginYield]
  cases s.enterFor id with
  | error e => simp
  | ok inside =>
      dsimp only
      cases he : inside.endJob id now with
      | error e =>
          rw [run_of_step inside.leave (.answered (.error e)) (by simp [step, he])]
          simp
      | ok r =>
          obtain ⟨y, ended⟩ := r
          rw [run_of_step ended (.armNext id y) (by simp [step, he]),
            run_of_step (ended.armAt id y.armAt).leave (afterYield id y) rfl,
            run_afterYield]

theorem run_deregister (s : Scheduler) (resolver : Resolver) (now : Instant) (id : TaskId)
    (h : s.timers.inFlight ≠ some id) :
    run resolver now 7 s (.call (.deregister id)) =
      ((s.deregister id).2, .answered (s.deregister id).1) := by
  rw [run_call]
  simp only [begin, Scheduler.deregister]
  cases he : s.enterFor id with
  | error e => simp
  | ok inside =>
      -- Entering the registry leaves the timers alone, so the wait is over at once.
      have hin : (inside.cancel id).timers.cancelMayReturn id = true := by
        rw [(Scheduler.enterFor_eq_ok_iff.1 he).2.2]
        simp [Scheduler.cancel, Timers.cancel, Timers.cancelMayReturn, h]
      dsimp only
      rw [run_of_step (inside.cancel id) (.awaitCallback id) rfl,
        run_of_step (inside.cancel id) (.withdraw id) (by simp [step, hin]),
        run_of_step ((inside.cancel id).withdraw id).2
          (.strike id ((inside.cancel id).withdraw id).1) rfl]
      cases hs : ((inside.cancel id).withdraw id).2.strike id with
      | error e =>
          rw [run_of_step ((inside.cancel id).withdraw id).2.leave
            (.answered (.error e)) (by simp [step, hs])]
          simp
      | ok r =>
          obtain ⟨entry, outside⟩ := r
          dsimp only
          cases ((inside.cancel id).withdraw id).1 with
          | true =>
              rw [run_of_step outside
                (.reset entry.handle (.post (.deregistered id) (.answered (.ok (.deregistered id)))))
                (by simp [step, hs])]
              rfl
          | false =>
              rw [run_of_step outside (.post (.deregistered id) (.answered (.ok (.deregistered id))))
                (by simp [step, hs])]
              rfl

theorem run_release (s : Scheduler) (resolver : Resolver) (now : Instant) (id : TaskId) :
    run resolver now 2 s (.call (.release id)) = (s.release id, finished) := by
  rw [run_call]
  simp only [begin, Scheduler.release]
  cases s.releaseTask id with
  | mk outcome next => cases outcome <;> rfl

theorem run_start (s : Scheduler) (resolver : Resolver) (now : Instant) :
    run resolver now 3 s (.call .start) = (s.start.2, .answered s.start.1) := by
  rw [run_call]
  simp only [begin, Scheduler.start]
  cases hs : s.stopRequested with
  | true => simp
  | false =>
      cases hj : s.joinable with
      | true => simp [run, step, finished, hj]
      | false =>
          simp only [Bool.false_eq_true, if_false]
          rw [run_of_step { s with joinable := true, loop := .waiting }
            (.post .started finished) (by simp [step, hj])]
          simp [run, step, finished, hs]

end Activity

end RateMonotonic
