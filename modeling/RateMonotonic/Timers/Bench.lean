/-
**A bench for timers**: callbacks that follow a script and use the timers themselves.

The next callback of a task performs the actions of its script, once.  To fire the due timers and no
others, the bench arms a mark of its own at the present instant; the worker fires timers until it
comes to the mark.  A timer that a callback arms at the present instant comes behind the mark.

Main definitions:
* `TimerAction`, `TimerAnswer` — an action of a callback, and what it learns;
* `TimerBench` — timers and scripts; `TimerBench.perform` — one action;
* `TimerBench.fire` — all due timers, with what their callbacks learned;
* `TimerBench.fireCancelling` — the same while somebody cancels the task whose callback waits.
-/

import RateMonotonic.Task
import RateMonotonic.Timers

set_option relaxedAutoImplicit false
set_option autoImplicit false

namespace RateMonotonic

/-- What is done with timers. -/
inductive TimerAction where
  | arm (id : TaskId) (deadline : Instant)
  | cancel (id : TaskId)
  | isArmed (id : TaskId)
  | deadline (id : TaskId)
  | describe
  /-- Wait until somebody has begun to cancel the task of this callback. -/
  | await
deriving DecidableEq, Repr

/-- What is learned from an action. -/
inductive TimerAnswer where
  | done
  | truth (value : Bool)
  | instant (value : Option Instant)
  | text (value : String)
deriving DecidableEq, Repr

/-- Timers with the scripts of their callbacks.  The key without a task is the mark of the bench. -/
structure TimerBench where
  /-- The timers of the tasks, and the mark. -/
  timers : Timers (Option TaskId)
  /-- The actions of the next callback of a task. -/
  scripts : Table TaskId (List TimerAction)
  /-- Whether a cancellation of the callback that waits removed a pending timer. -/
  removed : Option Bool

namespace TimerBench

/-- No timers and no scripts. -/
def empty : TimerBench := ⟨Timers.empty, Table.empty, none⟩

/-- One action, outside of any callback or in one. -/
def perform (b : TimerBench) : TimerAction → TimerAnswer × TimerBench
  | .arm id deadline => (.done, { b with timers := b.timers.arm (some id) deadline })
  | .cancel id =>
      (.truth (b.timers.isArmed (some id)), { b with timers := b.timers.cancel (some id) })
  | .isArmed id => (.truth (b.timers.isArmed (some id)), b)
  | .deadline id => (.instant (b.timers.deadline? (some id)), b)
  | .describe => (.text b.timers.text, b)
  | .await => (.done, b)

/-- Set the script of a task's next callback. -/
def onFire (b : TimerBench) (id : TaskId) (script : List TimerAction) : TimerBench :=
  { b with scripts := b.scripts.insert id script }

/-- Shut the timers down. -/
def shutdown (b : TimerBench) : TimerBench := { b with timers := b.timers.shutdown }

/-- Somebody begins to cancel a task whose callback waits. -/
def beginCancel (b : TimerBench) (id : TaskId) : TimerBench :=
  { b with
    timers := b.timers.cancel (some id)
    removed := some (b.timers.isArmed (some id)) }

/-- One action of a callback.  If it waits, and it is the one that is to be cancelled, somebody
begins to cancel it. -/
def performIn (target : Option TaskId) (id : TaskId) (b : TimerBench) (a : TimerAction) :
    TimerAnswer × TimerBench :=
  if a = .await ∧ target = some id ∧ b.removed = none then (.done, b.beginCancel id) else b.perform a

/-- The actions of a callback in order. -/
def callback (target : Option TaskId) (id : TaskId) :
    List TimerAction → TimerBench → List TimerAnswer × TimerBench
  | [], b => ([], b)
  | a :: rest, b =>
      let (answer, next) := performIn target id b a
      let (answers, last) := callback target id rest next
      (answer :: answers, last)

/-- The script of a task's next callback, which is then used up. -/
def takeScript (b : TimerBench) (id : TaskId) : List TimerAction × TimerBench :=
  ((b.scripts.get? id).getD [], { b with scripts := b.scripts.erase id })

/-- At most this many rounds of the worker, up to the mark. -/
def rounds (target : Option TaskId) (now : Instant) :
    Nat → TimerBench → List (TaskId × List TimerAnswer) × TimerBench
  | 0, b => ([], b)
  | n + 1, b =>
      match b.timers.poll now with
      | (some (some id), timers) =>
          let (script, ready) := takeScript { b with timers := timers } id
          let (answers, after) := callback target id script ready
          let (later, last) := rounds target now n { after with timers := after.timers.finish }
          ((id, answers) :: later, last)
      | (some none, timers) => ([], { b with timers := timers.finish })
      | (none, timers) => ([], { b with timers := timers })

/-- A bound on the rounds up to the mark: the pending timers, those that scripts arm, and the mark. -/
def bound (b : TimerBench) : Nat :=
  b.timers.pendingCount + b.scripts.values.flatten.length + 1

/-- Fire all timers that are due, with what their callbacks learned. -/
def run (target : Option TaskId) (now : Instant) (b : TimerBench) :
    List (TaskId × List TimerAnswer) × TimerBench :=
  let marked := { b with timers := b.timers.arm none now, removed := none }
  rounds target now marked.bound marked

/-- Fire all timers that are due, with what their callbacks learned. -/
def fire (now : Instant) (b : TimerBench) : List (TaskId × List TimerAnswer) × TimerBench :=
  run none now b

/-- Fire all timers that are due; while the callback of a task waits, somebody cancels the task.
Tells whether that removed a pending timer. -/
def fireCancelling (id : TaskId) (now : Instant) (b : TimerBench) :
    Bool × List (TaskId × List TimerAnswer) × TimerBench :=
  let (fired, next) := run (some id) now b
  (next.removed.getD false, fired, next)

end TimerBench

end RateMonotonic
