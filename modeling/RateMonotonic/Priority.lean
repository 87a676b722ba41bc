/-
**Priority changes**: the operating system's scheduling classes, and the record of the changes that
a scheduler asked for.

A scheduler asks for two changes: to elevate a handle into a real-time class, and to reset it to the
time-sharing class.  `PriorityLog` is the record of these requests in order; a handle counts as
elevated while its latest request is an elevation.

Main definitions:
* `SchedClass` — the classes and the words for them;
* `PriorityEvent` — one request;
* `PriorityLog` — the requests so far, with `PriorityLog.elevated`.

Main results:
* `PriorityLog.elevated_elevate`, `PriorityLog.elevated_reset` — what one more request does to the
  elevated handles.
-/

import RateMonotonic.Task

set_option relaxedAutoImplicit false
set_option autoImplicit false

namespace RateMonotonic

/-- A scheduling class of the operating system. -/
inductive SchedClass where
  /-- Real time, first in first out. -/
  | fifo
  /-- Real time, in turns. -/
  | roundRobin
  /-- Time sharing, the default. -/
  | normal
deriving DecidableEq, Repr, Inhabited

/-- The operating system's name of a class. -/
def SchedClass.text : SchedClass → String
  | .fifo => "SCHED_FIFO"
  | .roundRobin => "SCHED_RR"
  | .normal => "SCHED_OTHER"

/-- A requested change of priority. -/
inductive PriorityEvent where
  /-- Move a handle into a class at a level. -/
  | elevate (handle : ExecHandle) (schedClass : SchedClass) (level : Int32)
  /-- Return a handle to the time-sharing class. -/
  | reset (handle : ExecHandle)
deriving DecidableEq, Repr

/-- The handle whose priority is to change. -/
def PriorityEvent.handle : PriorityEvent → ExecHandle
  | .elevate h _ _ => h
  | .reset h => h

/-- The requests so far, oldest first. -/
structure PriorityLog where
  events : List PriorityEvent
deriving DecidableEq, Repr, Inhabited

namespace PriorityLog

/-- No request yet. -/
def empty : PriorityLog := ⟨[]⟩

/-- Record one more request. -/
def record (log : PriorityLog) (e : PriorityEvent) : PriorityLog := ⟨log.events ++ [e]⟩

/-- Record an elevation. -/
def elevate (log : PriorityLog) (h : ExecHandle) (c : SchedClass) (level : Int32) : PriorityLog :=
  log.record (.elevate h c level)

/-- Record a reset. -/
def reset (log : PriorityLog) (h : ExecHandle) : PriorityLog := log.record (.reset h)

/-- The elevated handles after one more request: an elevation appends its handle unless it is there,
a reset takes its handle out. -/
def elevatedAfter (elevated : List ExecHandle) : PriorityEvent → List ExecHandle
  | .elevate h _ _ => if h ∈ elevated then elevated else elevated ++ [h]
  | .reset h => elevated.filter (· ≠ h)

/-- The handles whose latest request is an elevation, in the order in which they became so. -/
def elevated (log : PriorityLog) : List ExecHandle := log.events.foldl elevatedAfter []

/-- Whether a handle's latest request is an elevation. -/
def isElevated (log : PriorityLog) (h : ExecHandle) : Bool := log.elevated.contains h

/-! ### One more request -/

theorem elevated_record (log : PriorityLog) (e : PriorityEvent) :
    (log.record e).elevated = elevatedAfter log.elevated e := by
  simp [elevated, record]

theorem elevated_elevate (log : PriorityLog) (h : ExecHandle) (c : SchedClass) (level : Int32) :
    (log.elevate h c level).elevated =
      if h ∈ log.elevated then log.elevated else log.elevated ++ [h] :=
  elevated_record log _

theorem elevated_reset (log : PriorityLog) (h : ExecHandle) :
    (log.reset h).elevated = log.elevated.filter (· ≠ h) :=
  elevated_record log _

end PriorityLog

end RateMonotonic
