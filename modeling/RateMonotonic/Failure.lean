/-
**Failures of the front end**: files, configurations, command lines and the scheduler itself.

Main definitions:
* `Failure` — what failed;
* `Failure.message` — the wording.
-/

import RateMonotonic.Command
import RateMonotonic.Error
import RateMonotonic.Json.Reader

set_option relaxedAutoImplicit false
set_option autoImplicit false

namespace RateMonotonic

/-- What failed. -/
inductive Failure where
  /-- Reading or writing, or the text is not UTF-8. -/
  | transfer
  /-- A text in JSON does not describe what it should. -/
  | json (fault : Json.Fault)
  /-- A line, counted from one, is no command. -/
  | line (number : Nat) (fault : Command.Fault)
  | scheduler (error : SchedError)
deriving DecidableEq, Repr

namespace Failure

/-- The wording of a failure. -/
def message : Failure → String
  | .transfer => "IO error"
  | .json .truncated => "JSON error: unexpected end"
  | .json .malformed => "JSON error: not JSON"
  | .json .mistyped => "JSON error: unexpected value"
  | .line number fault =>
      "Protocol error on line " ++ Decimal.text number ++ ": " ++ fault.message
  | .scheduler error => "Scheduler error: " ++ error.message

end Failure

end RateMonotonic
