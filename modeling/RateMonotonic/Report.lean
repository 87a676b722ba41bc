/-
**Status reports**: one block of lines per registered task, numbered from one.

Main definitions:
* `Report.block` — the lines on one task, with times in whole milliseconds;
* `Report.chars`, `Report.text` — the report on a list of tasks.
-/

import RateMonotonic.Task

set_option relaxedAutoImplicit false
set_option autoImplicit false

namespace RateMonotonic.Report

/-- The lines on one task. -/
def block (position : Nat) (t : TaskInfo) : List Char :=
  "Process # ".toList ++ Decimal.digits position ++ " details:\nPID:".toList ++
    Decimal.digits t.id.number.toNat ++ "\nP:".toList ++ Decimal.digits t.period.millis ++
    "\nC:".toList ++ Decimal.digits t.budget.millis ++ ['\n']

/-- The blocks of tasks from a position on. -/
def blocksFrom (position : Nat) : List TaskInfo → List Char
  | [] => []
  | t :: rest => block position t ++ blocksFrom (position + 1) rest

/-- The report on a list of tasks. -/
def chars (tasks : List TaskInfo) : List Char := blocksFrom 1 tasks

/-- The report on a list of tasks, as text. -/
def text (tasks : List TaskInfo) : String := String.ofList (chars tasks)

end RateMonotonic.Report
