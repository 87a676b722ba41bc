/-
**Sessions**: a scheduler driven by the lines of a text.

Every line is skipped, refused as no command, or obeyed; a refusal by the scheduler is counted, and
the session goes on.  It ends early only if a line is no text in UTF-8 or a report cannot be written.

Main definitions:
* `Scheduler.execute` — a command performed by a scheduler;
* `Summary` — how many lines were obeyed, were no commands, and were refused;
* `Session` — the scheduler, the summary, what has been written, and whether it has failed;
* `Session.step` — one line; `Session.run` — all lines of a text;
* `Session.result` — the summary of a session that has not failed.
-/

import RateMonotonic.Command
import RateMonotonic.Failure
import RateMonotonic.Json.Value
import RateMonotonic.Report
import RateMonotonic.Scheduler.Operation
import RateMonotonic.Text.Lines

set_option relaxedAutoImplicit false
set_option autoImplicit false

namespace RateMonotonic

/-- The call that a command stands for; a report is no call. -/
def Command.call? : Command → Option Call
  | .register id period budget => some (.register ⟨id, period, budget⟩)
  | .yield id => some (.beginYield id)
  | .deregister id => some (.deregister id)
  | .status => none

/-- Perform a command. -/
def Scheduler.execute (s : Scheduler) (resolver : Resolver) (now : Instant) (c : Command) :
    Answer × Scheduler :=
  match c.call? with
  | some call => s.perform resolver now call
  | none => (Reply.listed <$> s.snapshot, s)

/-- What became of the lines of a session. -/
structure Summary where
  /-- Commands that were obeyed. -/
  applied : Nat
  /-- Lines that are no commands. -/
  malformed : Nat
  /-- Commands that the scheduler refused. -/
  rejected : Nat
deriving DecidableEq, Repr, Inhabited

/-- A summary over several lines of JSON. -/
def Summary.text (s : Summary) : String :=
  String.ofList (Json.Value.lines
    [("applied", .nat s.applied), ("malformed", .nat s.malformed), ("rejected", .nat s.rejected)])

/-- A scheduler with what became of the lines so far. -/
structure Session where
  /-- The scheduler that obeys. -/
  scheduler : Scheduler
  /-- What became of the lines so far. -/
  summary : Summary
  /-- The reports written so far. -/
  out : String
  /-- Whether reading or writing has failed. -/
  failed : Bool

namespace Session

/-- A session before its first line. -/
def start (s : Scheduler) : Session := ⟨s, ⟨0, 0, 0⟩, "", false⟩

/-- Whether a line without its blank ends is skipped: it is empty, or a remark. -/
def isSkipped (line : List Char) : Bool := line.isEmpty || decide (line.head? = some '#')

/-- Write a report, unless that takes more bytes than there is room for. -/
def write (room : Option Nat) (s : Session) (report : String) : Session :=
  let out := s.out ++ report
  -- An empty report is no write and cannot fail.
  if report ≠ "" ∧ room.any (· < out.utf8ByteSize) then { s with failed := true }
  else { s with out := out, summary := { s.summary with applied := s.summary.applied + 1 } }

/-- Take note of a scheduler's answer. -/
def note (room : Option Nat) (s : Session) : Answer → Session
  | .error _ => { s with summary := { s.summary with rejected := s.summary.rejected + 1 } }
  | .ok (.listed tasks) => s.write room (Report.text tasks)
  | .ok _ => { s with summary := { s.summary with applied := s.summary.applied + 1 } }

/-- Obey a command. -/
def obey (resolver : Resolver) (now : Instant) (room : Option Nat) (s : Session) (c : Command) :
    Session :=
  let (answer, next) := s.scheduler.execute resolver now c
  note room { s with scheduler := next } answer

/-- One line of text. -/
def readLine (resolver : Resolver) (now : Instant) (room : Option Nat) (s : Session)
    (line : List Char) : Session :=
  let trimmed := Blank.trim line
  if isSkipped trimmed then s
  else
    match Command.parse trimmed with
    | .error _ => { s with summary := { s.summary with malformed := s.summary.malformed + 1 } }
    | .ok c => s.obey resolver now room c

/-- One line, which may be no text.  After a failure no line is read. -/
def step (resolver : Resolver) (now : Instant) (room : Option Nat) (s : Session) :
    Option (List Char) → Session
  | none => { s with failed := true }
  | some line => if s.failed then s else s.readLine resolver now room line

/-- All lines of a text in order. -/
def run (resolver : Resolver) (now : Instant) (room : Option Nat) (s : Scheduler)
    (bytes : List UInt8) : Session :=
  (Lines.ofBytes bytes).foldl (step resolver now room) (start s)

/-- The summary, unless the session has failed. -/
def result (s : Session) : Except Failure Summary :=
  if s.failed then .error .transfer else .ok s.summary

/-- The tasks that the lines of a text ask to register. -/
def candidates (bytes : List UInt8) : List TaskId :=
  (Lines.ofBytes bytes).filterMap fun line =>
    match line.map Command.parse with
    | some (.ok (.register id _ _)) => some id
    | _ => none

end Session

end RateMonotonic
