/-
**Scheduling errors**: why an operation of the scheduler is refused.

Main definitions:
* `SchedError` — the causes;
* `SchedError.message` — their wording;
* `SchedError.isRetryable`, `SchedError.isRejection` — the two families that callers tell apart.
-/

import RateMonotonic.Task

set_option relaxedAutoImplicit false
set_option autoImplicit false

namespace RateMonotonic

/-- Why an operation of the scheduler is refused.  Utilizations are in permille. -/
inductive SchedError where
  /-- The candidate does not fit beside the admitted tasks. -/
  | admissionFailed (requested existing bound : Nat)
  /-- The task's number does not lead to a live execution context. -/
  | unknownTask (id : TaskId)
  | notFound (id : TaskId)
  | alreadyRegistered (id : TaskId)
  /-- The period or the budget is empty, or the period leaves the clock's range. -/
  | invalidTiming (period budget : Duration)
  /-- Somebody else held the registry for too long. -/
  | lockUnavailable
  /-- A configuration value is out of range. -/
  | invalidConfig (reason : String)
  | stopped
  /-- A worker could not be started. -/
  | spawnFailed (reason : String)
  /-- The operating system refused to change a priority. -/
  | priorityChange (handle : ExecHandle) (reason : String)
deriving DecidableEq, Repr

namespace SchedError

/-- The wording of an error. -/
def message : SchedError → String
  | .admissionFailed requested existing bound =>
      "admission failed: requested " ++ Decimal.text requested ++ "‰ on top of " ++
        Decimal.text existing ++ "‰ exceeds bound " ++ Decimal.text bound ++ "‰"
  | .unknownTask id => "task " ++ id.text ++ " does not resolve to a live execution handle"
  | .notFound id => "task " ++ id.text ++ " is not registered"
  | .alreadyRegistered id => "task " ++ id.text ++ " is already registered"
  | .invalidTiming period budget =>
      "invalid timing: period " ++ period.text ++ ", budget " ++ budget.text
  | .lockUnavailable => "registry lock unavailable"
  | .invalidConfig reason => "invalid configuration: " ++ reason
  | .stopped => "scheduler stopped"
  | .spawnFailed reason => "failed to spawn worker thread: " ++ reason
  | .priorityChange handle reason =>
      "priority change for " ++ handle.text ++ " failed: " ++ reason

/-- Whether the same call may succeed later. -/
def isRetryable : SchedError → Bool
  | .lockUnavailable | .spawnFailed _ => true
  | _ => false

/-- Whether a registration was turned down for what it asked. -/
def isRejection : SchedError → Bool
  | .admissionFailed .. | .unknownTask _ | .alreadyRegistered _ | .invalidTiming .. => true
  | _ => false

end SchedError

end RateMonotonic
