/-
**Wakes**: the notices that wait for the dispatcher.

At most a fixed number of wakes wait; one more is dropped.  Nothing is lost by that, because a wake
only says that the schedule is to be looked at again, and those that wait already say so.

Main definitions:
* `Wake` — why the dispatcher is woken;
* `Wakes` — the wakes that wait; `Wakes.post`, `Wakes.take?` — adding one and taking the oldest.

Main results:
* `Wakes.post_ne_nil` — something waits after a wake has been posted.
-/

import RateMonotonic.Task

set_option relaxedAutoImplicit false
set_option autoImplicit false

namespace RateMonotonic

/-- Why the dispatcher is woken. -/
inductive Wake where
  /-- It has just been started. -/
  | started
  /-- A task was released. -/
  | released (id : TaskId)
  /-- A task ended its job. -/
  | yielded (id : TaskId)
  /-- A task was deregistered. -/
  | deregistered (id : TaskId)
  /-- It is to end. -/
  | stopped
deriving DecidableEq, Repr

/-- The wakes that wait for the dispatcher. -/
structure Wakes where
  /-- The wakes, oldest first. -/
  waiting : List Wake
  /-- How many can wait at most. -/
  capacity : Nat
deriving DecidableEq, Repr, Inhabited

namespace Wakes

/-- No wakes. -/
def empty (capacity : Nat) : Wakes := ⟨[], capacity⟩

/-- Add a wake, unless as many wait as can. -/
def post (w : Wakes) (wake : Wake) : Wakes :=
  if w.waiting.length < w.capacity then { w with waiting := w.waiting ++ [wake] } else w

/-- Take the oldest wake. -/
def take? (w : Wakes) : Option (Wake × Wakes) :=
  match w.waiting with
  | [] => none
  | wake :: rest => some (wake, { w with waiting := rest })

theorem post_ne_nil {w : Wakes} (h : 0 < w.capacity) (wake : Wake) :
    (w.post wake).waiting ≠ [] := by
  unfold post
  split
  · simp
  · next hfull =>
      intro hnil
      rw [hnil] at hfull
      exact hfull h

theorem capacity_post (w : Wakes) (wake : Wake) : (w.post wake).capacity = w.capacity := by
  unfold post
  split <;> rfl

theorem capacity_take? {w rest : Wakes} {wake : Wake} (h : w.take? = some (wake, rest)) :
    rest.capacity = w.capacity := by
  unfold take? at h
  split at h <;> cases h
  rfl

end Wakes

end RateMonotonic
