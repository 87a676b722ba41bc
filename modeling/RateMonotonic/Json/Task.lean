/-
**Tasks in JSON**: their numbers, states and parameters, and what a yield did to them.

Main definitions:
* `TaskId.json`, `ExecHandle.json`, `TaskState.json`, `TaskInfo.json`, `YieldOutcome.json` — writing;
* `TaskId.reader`, `ExecHandle.reader`, `TaskState.reader`, `TaskInfo.reader`,
  `YieldOutcome.reader` — reading.
-/

import RateMonotonic.Json.Duration
import RateMonotonic.Schedule

set_option relaxedAutoImplicit false
set_option autoImplicit false

namespace RateMonotonic

open Json (RecordField Reader Value Variant)

/-! ### Numbers -/

/-- A number of 32 bits. -/
def Json.word32 : Reader UInt32 := (Json.natural (2 ^ 32)).map Nat.toUInt32

/-- A task's number. -/
def TaskId.json (id : TaskId) : Value := .nat id.number.toNat

/-- Read a task's number. -/
def TaskId.reader : Reader TaskId := Json.word32.map TaskId.mk

/-- A handle's number. -/
def ExecHandle.json (h : ExecHandle) : Value := .nat h.number.toNat

/-- Read a handle's number. -/
def ExecHandle.reader : Reader ExecHandle := Json.word32.map ExecHandle.mk

/-! ### States -/

/-- The name of a state. -/
def TaskState.name : TaskState → String
  | .sleeping => "Sleeping"
  | .ready => "Ready"
  | .running => "Running"

/-- A state by its name. -/
def TaskState.json (s : TaskState) : Value := .string s.name

/-- Read a state. -/
def TaskState.reader : Reader TaskState :=
  Json.variant ([.sleeping, .ready, .running].map fun s => (TaskState.name s, Variant.plain s))

/-! ### Parameters -/

namespace TaskInfo

/-- A task's number, period and budget. -/
def json (t : TaskInfo) : Value :=
  .object [("task_id", t.id.json), ("period", t.period.json), ("budget", t.budget.json)]

/-- The fields of a task's parameters, as far as they have been read. -/
structure Draft where
  id : Option TaskId
  period : Option Duration
  budget : Option Duration

/-- The fields of a task's parameters. -/
def fields : List (RecordField Draft) :=
  [⟨"task_id", TaskId.reader.update fun id d => { d with id := some id }⟩,
    ⟨"period", Duration.reader.update fun p d => { d with period := some p }⟩,
    ⟨"budget", Duration.reader.update fun b d => { d with budget := some b }⟩]

/-- The parameters, if all fields are there. -/
def Draft.finish (d : Draft) : Option TaskInfo := do
  let id ← d.id
  let period ← d.period
  let budget ← d.budget
  return ⟨id, period, budget⟩

/-- Read a task's parameters. -/
def reader : Reader TaskInfo := Json.record fields .skipped ⟨none, none, none⟩ Draft.finish

end TaskInfo

/-! ### Outcomes of a yield -/

namespace YieldOutcome

/-- What a yield did to its task. -/
def json : YieldOutcome → Value
  | .sleeping remaining => .tagged "Sleeping" (.object [("remaining", remaining.json)])
  | .requeued => .string "Requeued"
  | .notRunning state => .tagged "NotRunning" state.json

/-- Read the content of a sleep. -/
def remainingReader : Reader Duration :=
  Json.record [⟨"remaining", Duration.reader.update fun d _ => some d⟩] .skipped none id

/-- Read the outcome of a yield. -/
def reader : Reader YieldOutcome :=
  Json.variant
    [("Sleeping", .content (remainingReader.map .sleeping)), ("Requeued", .plain .requeued),
      ("NotRunning", .content (TaskState.reader.map .notRunning))]

end YieldOutcome

end RateMonotonic
