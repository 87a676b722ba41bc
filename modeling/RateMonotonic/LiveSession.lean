/-
**Sessions among the threads**: a session whose commands take their sections one at a time, while
the dispatcher loop and the timer worker take their steps in between.

A session without the threads takes a whole line at once.  Here a line that asks for a call only
begins it; reports and lines without a command are over in one beat, as they are there.

Main definitions:
* `Session.call?` — the call that a line asks for;
* `LiveSession` — a session, the call in progress, and the lines still to be read;
* `Beat`, `LiveSession.beat`, `LiveSession.after` — what happens next, and runs;
* `LiveSession.ended` — nothing is left to be done.
-/

import RateMonotonic.Scheduler.Activity
import RateMonotonic.Scheduler.Thread
import RateMonotonic.Session

set_option relaxedAutoImplicit false
set_option autoImplicit false

namespace RateMonotonic

/-- The call that a line asks for, if it asks for one. -/
def Session.call? : Option (List Char) → Option Call
  | none => none
  | some line =>
      let trimmed := Blank.trim line
      if Session.isSkipped trimmed then none
      else
        match Command.parse trimmed with
        | .error _ => none
        | .ok c => c.call?

/-- What happens next in a live session. -/
inductive Beat where
  /-- The session goes on: it reads a line, or its call takes the next section. -/
  | client (now : Instant)
  /-- The dispatcher loop steps. -/
  | loop
  /-- The timer worker steps. -/
  | worker (now : Instant)

/-- A session that is interrupted by the threads. -/
structure LiveSession where
  session : Session
  /-- What remains of the call in progress. -/
  call : Option Activity
  /-- The lines still to be read. -/
  lines : List (Option (List Char))

namespace LiveSession

/-- A session before its first line. -/
def start (s : Scheduler) (bytes : List UInt8) : LiveSession :=
  ⟨Session.start s, none, Lines.ofBytes bytes⟩

/-- The session over another state of its scheduler. -/
def withScheduler (v : LiveSession) (next : Scheduler) : LiveSession :=
  { v with session := { v.session with scheduler := next } }

/-- Read a line: a call begins, anything else is over at once. -/
def read (resolver : Resolver) (now : Instant) (room : Option Nat) (v : LiveSession)
    (line : Option (List Char)) : LiveSession :=
  match Session.call? line with
  | some c => if v.session.failed then v else { v with call := some (.call c) }
  | none => { v with session := v.session.step resolver now room line }

/-- The session goes on.  A call that has to wait for the worker goes on later. -/
def goOn (resolver : Resolver) (now : Instant) (room : Option Nat) (v : LiveSession) :
    LiveSession :=
  match v.call with
  | none =>
      match v.lines with
      | [] => v
      | line :: rest => read resolver now room { v with lines := rest } line
  | some (.answered x) => { v with session := v.session.note room x, call := none }
  | some a =>
      match a.step v.session.scheduler resolver now with
      | none => v
      | some (next, rest) => { v.withScheduler next with call := some rest }

/-- The session after a beat; a thread that cannot step changes nothing. -/
def beat (resolver : Resolver) (room : Option Nat) (v : LiveSession) : Beat → LiveSession
  | .client now => v.goOn resolver now room
  | .loop => v.withScheduler (v.session.scheduler.loopStep.getD v.session.scheduler)
  | .worker now => v.withScheduler ((v.session.scheduler.workerStep now).getD v.session.scheduler)

/-- The session after a run of beats. -/
def after (resolver : Resolver) (room : Option Nat) (v : LiveSession) (beats : List Beat) :
    LiveSession := beats.foldl (beat resolver room) v

/-- Whether nothing is left to be done. -/
def ended (v : LiveSession) : Bool := v.call.isNone && v.lines.isEmpty

end LiveSession

end RateMonotonic
