/-
**Durations in JSON**: an object of whole seconds and the nanoseconds beyond them.

More than a second of nanoseconds is carried over; both fields are required and no other is allowed.

Main definitions:
* `Duration.json`, `Duration.reader` — writing and reading a duration.
-/

import RateMonotonic.Json.Record
import RateMonotonic.Json.Value
import RateMonotonic.Time.Duration

set_option relaxedAutoImplicit false
set_option autoImplicit false

namespace RateMonotonic.Duration

open Json (RecordField Reader Value)

/-- A duration as whole seconds and the nanoseconds beyond them. -/
def json (d : Duration) : Value :=
  .object [("secs", .nat d.seconds), ("nanos", .nat d.subsecond)]

/-- The two fields of a duration, as far as they have been read. -/
structure Draft where
  seconds : Option Nat
  nanos : Option Nat

/-- The fields of a duration: a 64-bit and a 32-bit number. -/
def fields : List (RecordField Draft) :=
  [⟨"secs", (Json.natural (2 ^ 64)).update fun n d => { d with seconds := some n }⟩,
    ⟨"nanos", (Json.natural (2 ^ 32)).update fun n d => { d with nanos := some n }⟩]

/-- The duration of both fields together, if it is in range. -/
def Draft.finish (d : Draft) : Option Duration := do
  let seconds ← d.seconds
  let nanos ← d.nanos
  ofParts? seconds nanos

/-- Read a duration. -/
def reader : Reader Duration := Json.record fields .refused ⟨none, none⟩ Draft.finish

end RateMonotonic.Duration
