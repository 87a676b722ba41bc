/-
**A bench for the scheduler**: a clock that runs by hand, handles set by hand, and calls that
intervene in other calls.

An intervention waits for a call to the platform and performs its own operations in the midst of it:
before the resolver answers, or after a priority change has been asked for.  After every operation
the scheduler's threads run until nothing is left for them to do.

Main definitions:
* `BenchOp`, `BenchAnswer` — what is done on the bench, and the answers;
* `Bench` — the scheduler with its surroundings;
* `Bench.drive` — a call, section by section, with interventions;
* `Bench.act` — one operation, after which the threads settle.
-/

import RateMonotonic.Scheduler.Activity
import RateMonotonic.Scheduler.Thread
import RateMonotonic.Session

set_option relaxedAutoImplicit false
set_option autoImplicit false

namespace RateMonotonic

/-- How a yield that waits is brought to an end. -/
inductive WaitEnd where
  | deregister
  | stop
deriving DecidableEq, Repr

/-- An operation on the bench. -/
inductive BenchOp where
  | call (c : Call)
  /-- A line of text, performed as a command. -/
  | line (text : List Char)
  /-- What a task was registered with. -/
  | find (id : TaskId)
  /-- What the tasks were registered with. -/
  | snapshot
  /-- What the tasks take together. -/
  | utilization
  /-- Where a task stands. -/
  | stateOf (id : TaskId)
  | isRunning
  | config
  | describe
  /-- Wait until a task is dispatched, or until the time is over. -/
  | wait (id : TaskId) (timeout : Option Duration)
  /-- Yield and wait until the task is dispatched again, or until the wait is brought to an end. -/
  | yieldAndWait (id : TaskId) (brokenBy : Option WaitEnd)
  /-- Give a task a handle. -/
  | resolvable (id : TaskId) (handle : ExecHandle)
  /-- Take a task's handle away. -/
  | unresolvable (id : TaskId)
  /-- Let operations intervene in the next call of this kind to the platform. -/
  | intervene (trigger : Activity.Outside) (ops : List BenchOp)
  | idle

/-- An answer on the bench. -/
inductive BenchAnswer where
  | nothing
  | done
  | refused (e : SchedError)
  /-- The line is no command. -/
  | fault (f : Command.Fault)
  | reply (r : Reply)
  | outcome (o : YieldOutcome)
  | truth (b : Bool)
  | number (n : Nat)
  | info (t : TaskInfo)
  | infos (l : List TaskInfo)
  /-- Where a task stands, if it is there. -/
  | state (s : Option TaskState)
  /-- A handle, if there is one. -/
  | handle (h : Option ExecHandle)
  | config (c : Config)
  | text (s : String)
  /-- The call would wait without end. -/
  | wouldBlock

/-- Operations that wait for a call to the platform. -/
structure Intervention where
  trigger : Activity.Outside
  /-- What is done in the midst of it. -/
  ops : List BenchOp

/-- A scheduler with its surroundings. -/
structure Bench where
  scheduler : Scheduler
  /-- The handles of the tasks that are alive. -/
  handles : HandleTable
  /-- The interventions that wait, oldest first. -/
  interventions : List Intervention
  clock : Instant
  /-- The first release of every task, unless it was registered while the loop ran. -/
  firsts : Table TaskId (Option Instant)
  /-- The answers of the interventions in the present operation. -/
  heard : List BenchAnswer

mutual

/-- The number of interventions that an operation may bring about. -/
def BenchOp.interventions : BenchOp → Nat
  | .intervene _ ops => interventionsOf ops + 1
  | _ => 0

/-- The number of interventions that operations may bring about. -/
def interventionsOf : List BenchOp → Nat
  | [] => 0
  | op :: rest => op.interventions + interventionsOf rest

end

namespace Bench

/-- A bench with a scheduler and handles, at an instant. -/
def ofScheduler (s : Scheduler) (handles : HandleTable) (clock : Instant) : Bench where
  scheduler := s
  handles := handles
  interventions := []
  clock := clock
  firsts := Table.empty
  heard := []

/-- The clock moves on by a microsecond. -/
def tick (b : Bench) : Bench :=
  { b with clock := (b.clock.add? ⟨1000, by decide⟩).getD b.clock }

/-- The scheduler's threads run until nothing is left for them to do. -/
def settle (b : Bench) : Bench := { b with scheduler := b.scheduler.settle b.clock }

/-- The clock moves on to the earliest release timer, if there is one. -/
def skipToTimer? (b : Bench) : Option Bench :=
  b.scheduler.timers.next?.map fun a =>
    { b with clock := if b.clock ≤ a.deadline then a.deadline else b.clock }

/-- Take the oldest intervention in a call to the platform. -/
def takeIntervention (b : Bench) (o : Activity.Outside) : Option (List BenchOp × Bench) :=
  (b.interventions.find? (·.trigger = o)).map fun i =>
    (i.ops, { b with interventions := b.interventions.eraseP (·.trigger = o) })

/-- Remember when a task that has just been registered is first released. -/
def noteFirst (b : Bench) (id : TaskId) : Bench :=
  let first := if b.scheduler.isRunning then none
    else (b.scheduler.schedule.task? id).map (·.nextRelease)
  { b with firsts := b.firsts.insert id first }

/-! ### Calls -/

/-- An intervention that comes before a section: the resolver has been asked. -/
def before (intervene : Activity.Outside → Bench → Bench) (a : Activity) (b : Bench) : Bench :=
  match a.outside? with
  | some (.resolve id) => intervene (.resolve id) b
  | _ => b

/-- An intervention that comes after a section: a priority change has been asked for. -/
def behind (intervene : Activity.Outside → Bench → Bench) (a : Activity) (b : Bench) : Bench :=
  match a.outside? with
  | some (.elevate handle) => intervene (.elevate handle) b
  | some (.reset handle) => intervene (.reset handle) b
  | _ => b

/-- What remains of a call, in at most this many sections; where it has to wait, the scheduler's
threads run first. -/
def drive (intervene : Activity.Outside → Bench → Bench) :
    Nat → Activity → Bench → Option Answer × Bench
  | 0, _, b => (none, b)
  | n + 1, a, b =>
      match a with
      | .answered answer => (some answer, b)
      | a =>
          let ready := before intervene a b
          match a.step ready.scheduler ready.handles.resolver ready.clock with
          -- The call waits for a thread: let the threads run, then try the section again.
          | none => drive intervene n a ready.settle
          | some (next, rest) =>
              drive intervene n rest (behind intervene a { ready with scheduler := next })

/-- More sections than any call has. -/
def sectionLimit : Nat := 20

/-- A whole call, with interventions. -/
def call (intervene : Activity.Outside → Bench → Bench) (c : Call) (b : Bench) :
    Option Answer × Bench :=
  match drive intervene sectionLimit (.call c) b with
  | (some (.ok (.registered id)), next) => (some (.ok (.registered id)), next.noteFirst id)
  | other => other

/-- The answer of a call that is made by itself. -/
def answerTo (c : Call) : Option Answer → BenchAnswer
  | none => .wouldBlock
  | some (.error e) => .refused e
  | some (.ok (.yielded _ o)) => .outcome o
  | some (.ok _) =>
      match c with
      | .stop => .nothing
      | .release _ => .nothing
      | .dispatch => .nothing
      | _ => .done

/-- The answer of a call that is made for a command. -/
def replyTo : Option Answer → BenchAnswer
  | none => .wouldBlock
  | some (.error e) => .refused e
  | some (.ok r) => .reply r

/-- An answer that may have been refused. -/
def answer {α : Type} (f : α → BenchAnswer) : Except SchedError α → BenchAnswer
  | .error e => .refused e
  | .ok a => f a

/-! ### Waiting -/

/-- The longest time that is waited for. -/
def longestWait : Duration := Duration.ofMillis 50

/-- Wait for a dispatch: the answer is there already, or the time runs out. -/
def waitFor (s : Scheduler) (id : TaskId) (timeout : Option Duration) : BenchAnswer :=
  match s.dispatched id, timeout with
  | .error e, _ => .refused e
  | .ok true, none => .done
  | .ok true, some _ => .truth true
  | .ok false, none => .wouldBlock
  | .ok false, some d => if d ≤ longestWait then .truth false else .wouldBlock

/-- Wait until a task that has yielded is dispatched again, for at most this many timers. -/
def awaitDispatch (id : TaskId) (o : YieldOutcome) : Nat → Bench → BenchAnswer × Bench
  | 0, b => (.wouldBlock, b)
  | n + 1, b =>
      match b.scheduler.dispatched id with
      | .error e => (.refused e, b)
      | .ok true => (.outcome o, b)
      | .ok false =>
          match b.skipToTimer? with
          | none => (.wouldBlock, b)
          | some later => awaitDispatch id o n later.settle

/-- What brings a wait to an end. -/
def breakingCall (id : TaskId) : WaitEnd → Call
  | .deregister => .deregister id
  | .stop => .stop

/-- Yield and wait. -/
def yieldAndWait (intervene : Activity.Outside → Bench → Bench) (id : TaskId)
    (brokenBy : Option WaitEnd) (b : Bench) : BenchAnswer × Bench :=
  match call intervene (.beginYield id) b with
  | (some (.ok (.yielded _ o)), yielded) =>
      let waiting := yielded.settle
      match brokenBy with
      | none => awaitDispatch id o (waiting.scheduler.timers.pendingCount + 1) waiting
      | some e =>
          let broken := (call intervene (breakingCall id e) waiting).2.settle
          match broken.scheduler.dispatched id with
          | .error err => (.refused err, broken)
          | .ok true => (.outcome o, broken)
          | .ok false => (.wouldBlock, broken)
  | (a, next) => (answerTo (.beginYield id) a, next)

/-! ### Operations -/

/-- A line of text, performed as a command. -/
def performLine (intervene : Activity.Outside → Bench → Bench) (text : List Char) (b : Bench) :
    BenchAnswer × Bench :=
  match Command.parse text with
  | .error f => (.fault f, b)
  | .ok c =>
      match c.call? with
      | some made =>
          let (a, next) := call intervene made b
          (replyTo a, next)
      | none => (answer (fun l => .reply (.listed l)) b.scheduler.snapshot, b)

/-- One operation, given what becomes of interventions. -/
def performWith (intervene : Activity.Outside → Bench → Bench) (b : Bench) :
    BenchOp → BenchAnswer × Bench
  | .call c =>
      let (a, next) := call intervene c b
      (answerTo c a, next)
  | .line text => performLine intervene text b
  | .find id => (answer .info (b.scheduler.find id), b)
  | .snapshot => (answer .infos b.scheduler.snapshot, b)
  | .utilization => (answer .number b.scheduler.utilization, b)
  | .stateOf id => (.state (b.scheduler.stateOf id), b)
  | .isRunning => (.truth b.scheduler.isRunning, b)
  | .config => (.config b.scheduler.config, b)
  | .describe => (.text b.scheduler.text, b)
  | .wait id timeout => (waitFor b.scheduler id timeout, b)
  | .yieldAndWait id brokenBy => yieldAndWait intervene id brokenBy b
  | .resolvable id handle => (.nothing, { b with handles := b.handles.insert id handle })
  | .unresolvable id => (.handle (b.handles.get? id), { b with handles := b.handles.erase id })
  | .intervene trigger ops =>
      (.nothing, { b with interventions := b.interventions ++ [⟨trigger, ops⟩] })
  | .idle => (.nothing, b)

/-- One operation, with interventions down to this depth, after which the threads settle. -/
def perform : Nat → Bench → BenchOp → BenchAnswer × Bench
  | 0, b, _ => (.nothing, b)
  | n + 1, b, op =>
      let hear (b : Bench) (op : BenchOp) : Bench :=
        let (a, next) := perform n b op
        { next with heard := next.heard ++ [a] }
      let intervene (o : Activity.Outside) (b : Bench) : Bench :=
        match b.takeIntervention o with
        | none => b
        -- The intervention is taken away first: what it does cannot bring it about again.
        | some (ops, rest) => ops.foldl hear rest
      let (a, next) := performWith intervene b.tick op
      (a, next.settle)

/-- A bound on the depth of interventions: each of them happens once. -/
def depth (b : Bench) (op : BenchOp) : Nat :=
  op.interventions + b.interventions.length + interventionsOf (b.interventions.flatMap (·.ops)) + 1

/-- One operation, after which the threads settle. -/
def act (b : Bench) (op : BenchOp) : BenchAnswer × Bench :=
  perform (b.depth op) { b with heard := [] } op

/-- The time from a task's first release to its next one, if the first is known. -/
def sinceFirst? (b : Bench) (t : Task) : Option Int :=
  ((b.firsts.get? t.id).bind id).map fun first => t.nextRelease.nanos - first.nanos

end Bench

end RateMonotonic
