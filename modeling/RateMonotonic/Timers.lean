/-
**One-shot timers**, at most one per key.

Arming a key replaces its timer.  The pending timers are kept in a table by key; beside it stands
the agenda, a list of armings by deadline, in which an arming that was replaced or cancelled stays
until it comes to the front.  A worker takes due timers off the agenda one at a time, earliest
first, and runs a callback for each; a timer is no longer pending while its callback runs.

Main definitions:
* `Timers` — the table, the agenda, the key whose callback runs, and whether all is shut down;
* `Timers.arm`, `Timers.cancel`, `Timers.shutdown` — for clients;
* `Timers.cancelMayReturn` — a cancellation returns only when no callback of its key runs;
* `Timers.poll`, `Timers.finish` — the two steps of the worker around a callback.

Main results:
* `Timers.deadline?_arm`, `Timers.deadline?_cancel` — the table is a map from keys to deadlines;
* `Timers.poll_eq_some` — the worker takes a pending timer that is due;
* `Timers.arm_of_shutdown` — nothing is armed after the shutdown.
-/

import RateMonotonic.Table
import RateMonotonic.Time.Instant

set_option relaxedAutoImplicit false
set_option autoImplicit false

namespace RateMonotonic

variable {κ : Type} [DecidableEq κ]

/-- One arming of a timer. -/
structure Arming (κ : Type) where
  deadline : Instant
  /-- The number of the arming. -/
  number : UInt64
  key : κ
deriving DecidableEq, Repr

/-- Whether an arming comes before another: by deadline, then by number. -/
def Arming.before (a b : Arming κ) : Bool :=
  decide (a.deadline < b.deadline) ||
    (decide (a.deadline = b.deadline) && decide (a.number < b.number))

/-- One-shot timers, at most one per key. -/
structure Timers (κ : Type) [DecidableEq κ] where
  /-- Deadline and arming number of every pending timer. -/
  pending : Table κ (Instant × UInt64)
  /-- The armings by deadline, with those that are no longer in force. -/
  agenda : List (Arming κ)
  /-- The number of the next arming. -/
  nextNumber : UInt64
  /-- The key whose callback runs. -/
  inFlight : Option κ
  /-- Whether the timers have been shut down. -/
  closed : Bool

namespace Timers

/-- No timers. -/
def empty : Timers κ := ⟨Table.empty, [], 0, none, false⟩

instance : Inhabited (Timers κ) := ⟨empty⟩

/-- Place an arming on the agenda. -/
def place (a : Arming κ) : List (Arming κ) → List (Arming κ)
  | [] => [a]
  | b :: rest => if a.before b then a :: b :: rest else b :: place a rest

/-! ### For clients -/

/-- Arm a key, in place of its earlier timer.  Ignored after the shutdown. -/
def arm (t : Timers κ) (key : κ) (deadline : Instant) : Timers κ :=
  if t.closed then t
  else
    { t with
      pending := t.pending.insert key (deadline, t.nextNumber)
      agenda := place ⟨deadline, t.nextNumber, key⟩ t.agenda
      nextNumber := t.nextNumber + 1 }

/-- The deadline of a key's pending timer. -/
def deadline? (t : Timers κ) (key : κ) : Option Instant := (t.pending.get? key).map (·.1)

/-- Whether a timer is pending for a key. -/
def isArmed (t : Timers κ) (key : κ) : Bool := t.pending.contains key

/-- The number of pending timers. -/
def pendingCount (t : Timers κ) : Nat := t.pending.size

/-- Remove a key's pending timer. -/
def cancel (t : Timers κ) (key : κ) : Timers κ := { t with pending := t.pending.erase key }

/-- Whether a cancellation from outside the worker may return: the key's callback does not run. -/
def cancelMayReturn (t : Timers κ) (key : κ) : Bool := decide (t.inFlight ≠ some key)

/-- Drop every timer and accept no more. -/
def shutdown (t : Timers κ) : Timers κ :=
  { t with pending := Table.empty, agenda := [], closed := true }

/-- The timers as they describe themselves. -/
def text (t : Timers κ) : String :=
  "TimerService \x7b pending: " ++ Decimal.text t.pendingCount ++ ", .. \x7d"

/-! ### The worker -/

/-- Whether an arming is still in force. -/
def inForce (t : Timers κ) (a : Arming κ) : Bool :=
  decide (t.pending.get? a.key = some (a.deadline, a.number))

/-- Drop the armings at the front of the agenda that are no longer in force. -/
def prune (t : Timers κ) : Timers κ :=
  { t with agenda := t.agenda.dropWhile fun a => !t.inForce a }

/-- The earliest timer. -/
def next? (t : Timers κ) : Option (Arming κ) := t.prune.agenda.head?

/-- Take the earliest timer if it is due; its callback runs from now on. -/
def poll (t : Timers κ) (now : Instant) : Option κ × Timers κ :=
  if t.closed then (none, t)
  else
    match t.prune.agenda with
    | [] => (none, t.prune)
    | a :: rest =>
        if a.deadline ≤ now then
          -- From here to `finish` the key is in flight, and it may be armed anew meanwhile.
          (some a.key,
            { t with pending := t.pending.erase a.key, agenda := rest, inFlight := some a.key })
        else (none, t.prune)

/-- The callback that ran has ended. -/
def finish (t : Timers κ) : Timers κ := { t with inFlight := none }

/-! ### The map of deadlines -/

theorem deadline?_arm (t : Timers κ) (h : t.closed = false) (key other : κ) (d : Instant) :
    (t.arm key d).deadline? other = if key = other then some d else t.deadline? other := by
  simp only [deadline?, arm, h, Bool.false_eq_true, if_false, Table.get?_insert]
  split <;> rfl

theorem deadline?_arm_of_ne (t : Timers κ) {key other : κ} (hne : key ≠ other) (d : Instant) :
    (t.arm key d).deadline? other = t.deadline? other := by
  cases h : t.closed with
  | true => simp [arm, h]
  | false => rw [deadline?_arm t h, if_neg hne]

@[simp] theorem closed_arm (t : Timers κ) (key : κ) (d : Instant) :
    (t.arm key d).closed = t.closed := by
  unfold arm
  split <;> rfl

@[simp] theorem inFlight_arm (t : Timers κ) (key : κ) (d : Instant) :
    (t.arm key d).inFlight = t.inFlight := by
  unfold arm
  split <;> rfl

theorem deadline?_cancel (t : Timers κ) (key other : κ) :
    (t.cancel key).deadline? other = if key = other then none else t.deadline? other := by
  simp only [deadline?, cancel, Table.get?_erase]
  split <;> rfl

/-- Cancelling a timer that was armed for a new key gives back what was pending. -/
theorem pending_cancel_arm {t : Timers κ} {key : κ} (hnew : t.deadline? key = none) (d : Instant) :
    ((t.arm key d).cancel key).pending = t.pending := by
  have hget : t.pending.get? key = none := by simpa [deadline?] using hnew
  cases hclosed : t.closed with
  | true =>
      simp only [arm, hclosed, if_true]
      exact Table.erase_eq_self hget
  | false =>
      simp only [cancel, arm, hclosed, Bool.false_eq_true, if_false]
      exact Table.erase_insert hget _

theorem isArmed_iff {t : Timers κ} {key : κ} :
    t.isArmed key = true ↔ ∃ d, t.deadline? key = some d := by
  simp only [isArmed, Table.contains, deadline?, Option.isSome_iff_exists, Option.map_eq_some_iff]
  exact ⟨fun ⟨v, h⟩ => ⟨v.1, v, h, rfl⟩, fun ⟨_, v, h, _⟩ => ⟨v, h⟩⟩

/-- **The worker takes a pending timer that is due**, which is pending no more while its callback
runs. -/
theorem poll_eq_some {t next : Timers κ} {key : κ} {now : Instant}
    (h : t.poll now = (some key, next)) :
    t.closed = false ∧ next.closed = false ∧ next.inFlight = some key ∧
      (∃ d, t.deadline? key = some d ∧ d ≤ now) ∧
        ∀ other, next.deadline? other = if key = other then none else t.deadline? other := by
  unfold poll at h
  split at h
  · cases h
  · next hopen =>
      split at h
      · cases h
      · next a rest hagenda =>
          -- The front of the pruned agenda is in force.
          have hfront := List.head?_dropWhile_not (fun a => !t.inForce a) t.agenda
          rw [show t.agenda.dropWhile (fun a => !t.inForce a) = a :: rest from hagenda] at hfront
          have hforce : t.pending.get? a.key = some (a.deadline, a.number) := by
            simpa [inForce] using hfront
          split at h
          · next hdue =>
              cases h
              refine ⟨by simpa using hopen, by simpa using hopen, rfl, ⟨a.deadline, ?_, hdue⟩,
                fun other => ?_⟩
              · simp [deadline?, hforce]
              · exact deadline?_cancel t a.key other
          · cases h

theorem arm_of_shutdown {t : Timers κ} (h : t.closed = true) (key : κ) (d : Instant) :
    t.arm key d = t := by
  simp [arm, h]

end Timers

end RateMonotonic
