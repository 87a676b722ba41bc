/-
**The dispatcher**: it evaluates the schedule and asks for the priority changes that follow.

A round evaluates the schedule in one step and then, in further steps, resets the task that lost
the slot, elevates the task that won it and confirms its grant.  A grant that lost its task before
it was confirmed is undone by one more reset.  Between any two of these steps others may change the
schedule, so what remains of a round is a value of its own, `Round`.

Main definitions:
* `Dispatcher` — the schedule, the requested priority changes, and the class and level of a grant;
* `Dispatcher.apply`, `Dispatcher.dispatch` — a decision, or a whole round, without interruption;
* `Round`, `Round.step` — the remaining steps of a round, one at a time.

Main results:
* `Round.finish_ofDecision` — the steps of a round taken in a row are `Dispatcher.apply`.
-/

import RateMonotonic.Priority
import RateMonotonic.Schedule

set_option relaxedAutoImplicit false
set_option autoImplicit false

namespace RateMonotonic

/-- The schedule, the priority changes asked for, and the class and level of a grant. -/
structure Dispatcher where
  /-- Who is ready and who holds the slot. -/
  schedule : Schedule
  /-- The priority changes asked for so far. -/
  priorities : PriorityLog
  /-- The class of a task that holds the slot. -/
  schedClass : SchedClass
  /-- The level of a task that holds the slot. -/
  level : Int32

instance : Inhabited Dispatcher := ⟨⟨Schedule.empty, PriorityLog.empty, .fifo, 99⟩⟩

namespace Dispatcher

/-- Evaluate the schedule. -/
def evaluate (d : Dispatcher) : Decision × Dispatcher :=
  let (decision, next) := d.schedule.evaluate
  (decision, { d with schedule := next })

/-- Ask for a handle's return to the time-sharing class. -/
def reset (d : Dispatcher) (h : ExecHandle) : Dispatcher :=
  { d with priorities := d.priorities.reset h }

/-- Ask for a handle's move into the class and level of the slot. -/
def elevate (d : Dispatcher) (h : ExecHandle) : Dispatcher :=
  { d with priorities := d.priorities.elevate h d.schedClass d.level }

/-- Confirm a grant, if its task still holds the slot. -/
def confirm (d : Dispatcher) (id : TaskId) : Bool × Dispatcher :=
  let (confirmed, next) := d.schedule.confirm id
  (confirmed, { d with schedule := next })

/-- Elevate the task that won the slot and confirm its grant, or undo it. -/
def resume (d : Dispatcher) (task : TaskId) (handle : ExecHandle) : Dispatcher :=
  match (d.elevate handle).confirm task with
  | (true, next) => next
  | (false, next) => next.reset handle

/-- Ask for the priority changes that a decision calls for. -/
def apply (d : Dispatcher) : Decision → Dispatcher
  | .idle => d
  | .keep _ _ => d
  | .grant task handle => d.resume task handle
  | .preempt _ preemptedHandle task handle => (d.reset preemptedHandle).resume task handle

/-- A whole round without interruption. -/
def dispatch (d : Dispatcher) : Decision × Dispatcher :=
  let (decision, next) := d.evaluate
  (decision, next.apply decision)

end Dispatcher

/-- The steps that remain of a round. -/
inductive Round where
  /-- Reset the task that lost the slot, then elevate the one that won it. -/
  | demote (preempted : ExecHandle) (task : TaskId) (handle : ExecHandle)
  /-- Elevate the task that won the slot. -/
  | elevate (task : TaskId) (handle : ExecHandle)
  /-- Confirm the grant. -/
  | confirm (task : TaskId) (handle : ExecHandle)
  /-- Reset the task whose grant was lost. -/
  | undo (handle : ExecHandle)
deriving DecidableEq, Repr

namespace Round

/-- The steps that a decision calls for. -/
def ofDecision : Decision → Option Round
  | .idle => none
  | .keep _ _ => none
  | .grant task handle => some (.elevate task handle)
  | .preempt _ preemptedHandle task handle => some (.demote preemptedHandle task handle)

/-- One step; nothing remains after the last. -/
def step (d : Dispatcher) : Round → Dispatcher × Option Round
  | .demote preempted task handle => (d.reset preempted, some (.elevate task handle))
  | .elevate task handle => (d.elevate handle, some (.confirm task handle))
  | .confirm task handle =>
      match d.confirm task with
      | (true, next) => (next, none)
      | (false, next) => (next, some (.undo handle))
  | .undo handle => (d.reset handle, none)

/-- At most this many steps in a row. -/
def finish : Nat → Dispatcher → Option Round → Dispatcher
  | 0, d, _ => d
  | _ + 1, d, none => d
  | n + 1, d, some r =>
      let (next, rest) := r.step d
      finish n next rest

/-- **Steps taken in a row are the whole application**: four suffice. -/
theorem finish_ofDecision (d : Dispatcher) (decision : Decision) :
    finish 4 d (ofDecision decision) = d.apply decision := by
  have hresume (d : Dispatcher) (n : Nat) (task : TaskId) (handle : ExecHandle) :
      finish (n + 3) d (some (.elevate task handle)) = d.resume task handle := by
    simp only [finish, step, Dispatcher.resume]
    cases h : (d.elevate handle).confirm task with
    | mk confirmed next => cases confirmed <;> cases n <;> simp [finish, step]
  cases decision with
  | idle => rfl
  | keep running head => rfl
  | grant task handle => exact hresume d 1 task handle
  | preempt preempted preemptedHandle task handle =>
      exact hresume (d.reset preemptedHandle) 0 task handle

end Round

end RateMonotonic
