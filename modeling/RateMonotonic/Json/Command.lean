/-
**Commands in JSON**: the name of a command with what it is about.

Main definitions:
* `Command.json` — writing a command.
-/

import RateMonotonic.Command
import RateMonotonic.Json.Task

set_option relaxedAutoImplicit false
set_option autoImplicit false

namespace RateMonotonic

open Json (Value)

/-- A command by its name, with the task that it is about. -/
def Command.json : Command → Value
  | .register id period budget =>
      .tagged "Register"
        (.object [("id", id.json), ("period", period.json), ("budget", budget.json)])
  | .yield id => .tagged "Yield" id.json
  | .deregister id => .tagged "Deregister" id.json
  | .status => .string "Status"

end RateMonotonic
