/-
**The scheduler**: registry, schedule, release timers and wakes behind one interface.

The scheduler's state holds what its clients, its dispatcher loop and its timer worker share, and
where these two stand.  This module has the state, the questions that can be asked of it, and the
sections of which the operations are put together; each section is what happens while one lock is
held, or one call to the platform.

Main definitions:
* `LoopState`, `WorkerState` — where the dispatcher loop and the timer worker stand;
* `Scheduler`, `Scheduler.new` — the state, and a scheduler of a configuration;
* `Scheduler.find`, `Scheduler.snapshot`, `Scheduler.utilization`, `Scheduler.stateOf`,
  `Scheduler.dispatched` — questions;
* `Scheduler.checkTiming`, `Scheduler.enterFor`, `Scheduler.checkCandidate`, `Scheduler.enroll` and
  others — sections.

Main results:
* `Scheduler.enter_of_held` — nobody enters a held registry;
* `Scheduler.enterFor_eq_ok_iff` — when the registry is entered on behalf of a task.
-/

import RateMonotonic.Config
import RateMonotonic.Dispatcher
import RateMonotonic.Platform
import RateMonotonic.Registry
import RateMonotonic.Timers
import RateMonotonic.Wakes

set_option relaxedAutoImplicit false
set_option autoImplicit false

namespace RateMonotonic

/-- Where the dispatcher loop stands. -/
inductive LoopState where
  /-- There is no loop. -/
  | absent
  /-- It waits for a wake. -/
  | waiting
  /-- It has taken a wake and not looked at anything yet. -/
  | woken
  /-- It has seen that it is to go on, and not looked at the schedule yet. -/
  | cleared
  /-- It carries out a decision. -/
  | applying (round : Round)
  /-- It has ended. -/
  | ended
deriving DecidableEq, Repr

/-- Where the timer worker stands. -/
inductive WorkerState where
  /-- It waits for a timer to be due. -/
  | idle
  /-- It has taken a task's timer and is about to release the task. -/
  | releasing (id : TaskId)
  /-- It has released a task and is about to wake the dispatcher. -/
  | announcing (id : TaskId)
  /-- Its callback is at an end. -/
  | finishing
deriving DecidableEq, Repr

/-- The state that clients, dispatcher loop and timer worker share. -/
structure Scheduler where
  config : Config
  registry : Registry
  /-- The schedule and the priority changes asked for. -/
  dispatcher : Dispatcher
  timers : Timers TaskId
  /-- The wakes that wait for the dispatcher. -/
  wakes : Wakes
  /-- Whether the scheduler is to stop, or has stopped. -/
  stopRequested : Bool
  /-- Whether a dispatcher loop has been started and nobody has seen it end yet. -/
  joinable : Bool
  /-- Where the dispatcher loop stands. -/
  loop : LoopState
  /-- Where the timer worker stands. -/
  worker : WorkerState

namespace Scheduler

/-- A scheduler without tasks, whose configuration is in range already. -/
def ofConfig (c : Config) : Scheduler where
  config := c
  registry := Registry.empty
  dispatcher := ⟨Schedule.empty, PriorityLog.empty, c.rtClass, c.rtLevel⟩
  timers := Timers.empty
  wakes := Wakes.empty c.wakeCapacity.toNat
  stopRequested := false
  joinable := false
  loop := .absent
  worker := .idle

instance : Inhabited Scheduler := ⟨ofConfig Config.default⟩

/-- A scheduler without tasks, if every value of the configuration is in range. -/
def new (c : Config) : Except SchedError Scheduler := ofConfig <$> c.check

/-- The schedule. -/
def schedule (s : Scheduler) : Schedule := s.dispatcher.schedule

/-- The scheduler with another schedule. -/
def withSchedule (s : Scheduler) (next : Schedule) : Scheduler :=
  { s with dispatcher := { s.dispatcher with schedule := next } }

/-! ### Questions -/

/-- What a task was registered with. -/
def find (s : Scheduler) (id : TaskId) : Except SchedError TaskInfo :=
  (·.info) <$> s.registry.lookup id

/-- What the tasks were registered with, in the order of their registration. -/
def snapshot (s : Scheduler) : Except SchedError (List TaskInfo) := s.registry.listing

/-- What the registered tasks take together, in permille. -/
def utilization (s : Scheduler) : Except SchedError Nat :=
  (fun inside => totalUtilization inside.timings) <$> s.registry.enter

/-- Where a task stands. -/
def stateOf (s : Scheduler) (id : TaskId) : Option TaskState := (s.schedule.task? id).map (·.state)

/-- Whether the dispatcher loop runs. -/
def isRunning (s : Scheduler) : Bool := s.joinable && !s.stopRequested

/-- Whether a task holds the slot with its priority raised.  There is no answer for a task that is
gone, nor after the end of all scheduling. -/
def dispatched (s : Scheduler) (id : TaskId) : Except SchedError Bool :=
  -- The end of scheduling is looked at before the task: a waiter learns of it in any case.
  if s.schedule.stopped then .error .stopped
  else
    match s.schedule.task? id with
    | none => .error (.notFound id)
    | some t => .ok (decide (t.state = .running) && t.resumed)

/-- The scheduler as it describes itself. -/
def text (s : Scheduler) : String :=
  "RmScheduler \x7b config: " ++ s.config.text ++ ", running: " ++
    (if s.isRunning then "true" else "false") ++ ", .. \x7d"

/-! ### Sections under the registry -/

/-- The first release of a task that is registered now.  The boundary after it has to be on the
clock too. -/
def firstRelease? (s : Scheduler) (now : Instant) (period : Duration) : Option Instant :=
  (now.add? s.config.firstReleaseOffset).filter fun first => (first.add? period).isSome

/-- The first release of a task that is registered now, if its timing can be served. -/
def checkTiming (s : Scheduler) (now : Instant) (t : TaskInfo) : Except SchedError Instant :=
  if t.period.isZero || t.budget.isZero then .error (.invalidTiming t.period t.budget)
  else
    match s.firstRelease? now t.period with
    | some first => .ok first
    | none => .error (.invalidTiming t.period t.budget)

/-- Take hold of the registry. -/
def enter (s : Scheduler) : Except SchedError Scheduler :=
  (fun inside => { s with registry := inside }) <$> s.registry.enter

/-- Let go of the registry. -/
def leave (s : Scheduler) : Scheduler := { s with registry := s.registry.leave }

/-- Take hold of the registry on behalf of a registered task. -/
def enterFor (s : Scheduler) (id : TaskId) : Except SchedError Scheduler :=
  match s.enter with
  | .error e => .error e
  | .ok inside => if inside.registry.contains id then .ok inside else .error (.notFound id)

/-- Whether a task may be registered beside those that are: it is not there, and it fits. -/
def checkCandidate (s : Scheduler) (t : TaskInfo) : Except SchedError Unit :=
  if s.registry.contains t.id then .error (.alreadyRegistered t.id)
  else
    -- The candidate is weighed against what is registered now; a task that left weighs nothing.
    let a := Admission.evaluate s.config.utilizationBound.toNat s.registry.timings t.budget t.period
    if a.admitted then .ok () else .error (.admissionFailed a.requested a.existing a.bound)

/-- The handle of a task. -/
def resolve (resolver : Resolver) (id : TaskId) : Except SchedError ExecHandle :=
  match resolver id with
  | some handle => .ok handle
  | none => .error (.unknownTask id)

/-- Take a task into the registry and into the schedule, where it sleeps until its first release. -/
def enroll (s : Scheduler) (e : RegistryEntry) (first : Instant) : Except SchedError Scheduler :=
  match s.registry.insert e with
  | .error err => .error err
  | .ok registry =>
      .ok ({ s with registry := registry }.withSchedule (s.schedule.put
        (Task.sleepingUntil e.info.id e.handle e.info.period e.info.budget first)))

/-- Take a task out of the registry, and let go of it. -/
def strike (s : Scheduler) (id : TaskId) : Except SchedError (RegistryEntry × Scheduler) :=
  match s.registry.remove id with
  | .error err => .error err
  | .ok (e, rest) => .ok (e, { s with registry := rest.leave })

/-! ### Sections under the schedule -/

/-- A task's release timer has fired. -/
def releaseTask (s : Scheduler) (id : TaskId) : ReleaseOutcome × Scheduler :=
  let (outcome, next) := s.schedule.release id
  (outcome, s.withSchedule next)

/-- A task ends its job. -/
def endJob (s : Scheduler) (id : TaskId) (now : Instant) :
    Except SchedError (YieldResult × Scheduler) :=
  match s.schedule.endJob id now with
  | .error e => .error e
  | .ok (y, next) => .ok (y, s.withSchedule next)

/-- Take a task out of the schedule; tells whether it held the slot. -/
def withdraw (s : Scheduler) (id : TaskId) : Bool × Scheduler :=
  let (held, next) := s.schedule.withdraw id
  (held, s.withSchedule next)

/-- End all scheduling; tells the handle of the slot's holder. -/
def halt (s : Scheduler) : Option ExecHandle × Scheduler :=
  let (holder, next) := s.schedule.stop
  (holder, s.withSchedule next)

/-! ### Timers, priorities and wakes -/

/-- Arm a task's release timer. -/
def arm (s : Scheduler) (id : TaskId) (deadline : Instant) : Scheduler :=
  { s with timers := s.timers.arm id deadline }

/-- Arm a task's release timer, if there is a deadline. -/
def armAt (s : Scheduler) (id : TaskId) : Option Instant → Scheduler
  | none => s
  | some deadline => s.arm id deadline

/-- Cancel a task's release timer. -/
def cancel (s : Scheduler) (id : TaskId) : Scheduler := { s with timers := s.timers.cancel id }

/-- Shut the release timers down. -/
def shutTimers (s : Scheduler) : Scheduler := { s with timers := s.timers.shutdown }

/-- Ask for a handle's return to the time-sharing class. -/
def reset (s : Scheduler) (h : ExecHandle) : Scheduler :=
  { s with dispatcher := s.dispatcher.reset h }

/-- Wake the dispatcher. -/
def post (s : Scheduler) (wake : Wake) : Scheduler := { s with wakes := s.wakes.post wake }

/-! ### Holding the registry -/

theorem enter_of_held {s : Scheduler} (h : s.registry.held = true) :
    s.enter = .error .lockUnavailable := by
  simp [enter, Registry.enter, h, Functor.map, Except.map]

theorem enter_of_free {s : Scheduler} (h : s.registry.held = false) :
    s.enter = .ok { s with registry := { s.registry with held := true } } := by
  simp [enter, Registry.enter, h, Functor.map, Except.map]

/-- Entering on behalf of a task is taking hold of a free registry in which it is registered. -/
theorem enterFor_eq_ok_iff {s inside : Scheduler} {id : TaskId} :
    s.enterFor id = .ok inside ↔
      s.registry.held = false ∧ s.registry.contains id = true ∧
        inside = { s with registry := { s.registry with held := true } } := by
  unfold enterFor
  cases h : s.registry.held with
  | true => simp [enter_of_held h]
  | false =>
      have hcontains : ({ s.registry with held := true } : Registry).contains id =
          s.registry.contains id := rfl
      simp only [enter_of_free h, hcontains]
      split
      · next hc => simp [hc, eq_comm]
      · next hc => simp [hc]

end Scheduler

end RateMonotonic
