/-
**Waiting for the slot.**

Whoever waits for a task to be dispatched looks where the task stands while he holds the schedule,
and sleeps if there is nothing to be told yet.  He sleeps until somebody wakes all who wait, and
looks again.  He knows the task by its number only, and remembers nothing between two looks.

Main definitions:
* `Waiter` — somebody who waits for a task to be dispatched;
* `Waiter.look` — a look at the schedule;
* `Waiter.rouse`, `Waiter.step` — he is woken, and looks again.

Main results:
* `Waiter.look_eq_served` — who looks is told that his task is dispatched exactly when it is.
-/

import RateMonotonic.Scheduler

set_option relaxedAutoImplicit false
set_option autoImplicit false

namespace RateMonotonic

/-- Somebody who waits for a task to be dispatched. -/
inductive Waiter where
  /-- He sleeps until he is woken. -/
  | asleep (id : TaskId)
  /-- He has been woken and is about to look again. -/
  | woken (id : TaskId)
  /-- He has been told that the task holds the slot with its priority raised. -/
  | served (id : TaskId)
  /-- He has been told why he is to wait no more. -/
  | refused (id : TaskId) (reason : SchedError)
deriving DecidableEq, Repr

namespace Waiter

/-- A look at the schedule: it tells, or there is something to wait for. -/
def look (s : Scheduler) (id : TaskId) : Waiter :=
  match s.dispatched id with
  | .error reason => .refused id reason
  | .ok true => .served id
  | .ok false => .asleep id

/-- Who sleeps is woken. -/
def rouse : Waiter → Waiter
  | .asleep id => .woken id
  | x => x

/-- Who has been woken looks again. -/
def step (s : Scheduler) : Waiter → Waiter
  | .woken id => look s id
  | x => x

/-- Whether he has been told, and waits no more. -/
def isTold : Waiter → Bool
  | .served _ => true
  | .refused _ _ => true
  | _ => false

/-- A look tells somebody that his task is dispatched exactly when it is. -/
theorem look_eq_served {s : Scheduler} {id id' : TaskId} :
    look s id' = .served id ↔ id' = id ∧ s.dispatched id = .ok true := by
  unfold look
  constructor
  · intro h
    split at h <;> cases h
    next hdispatched => exact ⟨rfl, hdispatched⟩
  · rintro ⟨rfl, hdispatched⟩
    rw [hdispatched]

theorem rouse_of_isTold {x : Waiter} (h : x.isTold = true) : x.rouse = x := by
  cases x <;> first | rfl | cases h

theorem step_of_isTold {x : Waiter} (h : x.isTold = true) (s : Scheduler) : x.step s = x := by
  cases x <;> first | rfl | cases h

end Waiter

end RateMonotonic
