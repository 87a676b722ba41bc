/-
**Timers with everybody at work**: clients, the worker, and the callbacks that it runs.

Clients arm and cancel keys from outside the worker, and so may the callback that runs.  A client's
cancellation removes the pending timer and then waits until no callback of its key runs; a callback
never waits.  The worker takes one turn after the other: the callback that it ran, if any, is over,
and the earliest timer, if it is due, is taken for the next.  An event that cannot happen changes
nothing.

Main definitions:
* `TimerEvent` — what can happen, all at once;
* `TimerSystem`, `TimerSystem.act`, `TimerSystem.after` — the timers with the cancellations that have
  been begun, and runs;
* `TimerReply`, `TimerSystem.reply` — what is learned from an event.

Main results:
* `TimerSystem.timers_act_recheck` — a cancellation that looks again leaves the timers alone.
-/

import RateMonotonic.Timers

set_option relaxedAutoImplicit false
set_option autoImplicit false

namespace RateMonotonic

/-- What can happen to timers, all at once. -/
inductive TimerEvent (κ : Type) where
  /-- A client arms a key. -/
  | arm (key : κ) (deadline : Instant)
  /-- A client begins to cancel a key. -/
  | cancel (key : κ)
  /-- A client's cancellation that waits looks again. -/
  | recheck (i : Nat)
  /-- The callback that runs arms a key. -/
  | armWithin (key : κ) (deadline : Instant)
  /-- The callback that runs cancels a key. -/
  | cancelWithin (key : κ)
  /-- The worker's callback, if one runs, is over, and the worker looks for the next timer. -/
  | turn (now : Instant)
  /-- Somebody shuts the timers down. -/
  | shutdown
deriving DecidableEq, Repr

/-- What is learned from an event. -/
inductive TimerReply (κ : Type) where
  | nothing
  /-- Whether a cancellation removed a pending timer. -/
  | removed (value : Bool)
  /-- The key whose callback begins, if one does. -/
  | fired (key : Option κ)
deriving DecidableEq, Repr

/-- A cancellation that a client has begun. -/
structure Cancellation (κ : Type) where
  key : κ
  /-- Whether it removed a pending timer. -/
  removed : Bool
  /-- Whether it has returned. -/
  returned : Bool
deriving DecidableEq, Repr

variable {κ : Type} [DecidableEq κ]

/-- Timers with the cancellations that clients have begun. -/
structure TimerSystem (κ : Type) [DecidableEq κ] where
  timers : Timers κ
  /-- The cancellations, oldest first. -/
  cancellations : List (Cancellation κ)

namespace TimerSystem

/-- No timers, and nobody at work. -/
def empty : TimerSystem κ := ⟨Timers.empty, []⟩

instance : Inhabited (TimerSystem κ) := ⟨empty⟩

/-- Whether a callback runs. -/
def running (s : TimerSystem κ) : Bool := s.timers.inFlight.isSome

/-- The worker's turn: it does not let go of the timers between the end of a callback and its look
for the next timer. -/
def turn (s : TimerSystem κ) (now : Instant) : Option κ × Timers κ := s.timers.finish.poll now

/-- The system after an event; one that cannot happen changes nothing. -/
def act (s : TimerSystem κ) : TimerEvent κ → TimerSystem κ
  | .arm key deadline => { s with timers := s.timers.arm key deadline }
  | .cancel key =>
      -- Only a cancellation that has to wait lets go of the timers before it returns.
      { timers := s.timers.cancel key
        cancellations := s.cancellations ++
          [⟨key, s.timers.isArmed key, s.timers.cancelMayReturn key⟩] }
  | .recheck i =>
      { s with
        cancellations := s.cancellations.modify i fun c =>
          { c with returned := c.returned || s.timers.cancelMayReturn c.key } }
  | .armWithin key deadline =>
      if s.running then { s with timers := s.timers.arm key deadline } else s
  | .cancelWithin key => if s.running then { s with timers := s.timers.cancel key } else s
  | .turn now => { s with timers := (s.turn now).2 }
  | .shutdown => { s with timers := s.timers.shutdown }

/-- What is learned from an event. -/
def reply (s : TimerSystem κ) : TimerEvent κ → TimerReply κ
  | .cancel key => .removed (s.timers.isArmed key)
  | .cancelWithin key => if s.running then .removed (s.timers.isArmed key) else .nothing
  | .turn now => .fired (s.turn now).1
  | _ => .nothing

/-- The system after a run of events. -/
def after (s : TimerSystem κ) (run : List (TimerEvent κ)) : TimerSystem κ := run.foldl act s

@[simp] theorem after_nil (s : TimerSystem κ) : s.after [] = s := rfl

@[simp] theorem after_cons (s : TimerSystem κ) (e : TimerEvent κ) (run : List (TimerEvent κ)) :
    s.after (e :: run) = (s.act e).after run := rfl

theorem after_append (s : TimerSystem κ) (run more : List (TimerEvent κ)) :
    s.after (run ++ more) = (s.after run).after more := List.foldl_append

theorem after_concat (s : TimerSystem κ) (run : List (TimerEvent κ)) (e : TimerEvent κ) :
    s.after (run ++ [e]) = (s.after run).act e := after_append s run [e]

@[simp] theorem timers_act_recheck (s : TimerSystem κ) (i : Nat) :
    (s.act (.recheck i)).timers = s.timers := rfl

end TimerSystem

end RateMonotonic
