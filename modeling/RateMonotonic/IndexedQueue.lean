/-
**The ready queue with an index**: the queue as two maps.

One map takes keys to tasks and is read in the order of its keys.  The other takes every queued task
to its key, so that a task is found without a walk along the queue: whether it is queued is asked of
the index alone, and what leaves the queue is the entry of the key that the index names.  Keys are
given out by two counters, one for arrivals and one for jobs put back.

Main definitions:
* `QueueKey`, `IndexedQueue` — the keys, and the two maps with the two counters;
* `IndexedQueue.insert`, `IndexedQueue.insertFront`, `IndexedQueue.remove`, `IndexedQueue.pop`,
  `IndexedQueue.clear` — what can be done with it;
* `IndexedQueue.head?`, `IndexedQueue.contains`, `IndexedQueue.ids` — the views;
* `QueueCall`, `QueueReply` — any of these operations, and its answer;
* `QueueView` — all that can be seen of a queue.
-/

import RateMonotonic.ReadyQueue
import RateMonotonic.Table

set_option relaxedAutoImplicit false
set_option autoImplicit false

namespace RateMonotonic

/-- What orders a queued task: its period, and its number among equal periods. -/
structure QueueKey where
  /-- The period of the task. -/
  period : Duration
  /-- Its number; jobs put back have negative ones. -/
  number : Int64
deriving DecidableEq, Repr

/-- The entry of a task under a key. -/
def QueueKey.entry (key : QueueKey) (id : TaskId) : QueueEntry := ⟨key.period, key.number, id⟩

/-- The key of an entry. -/
def QueueEntry.key (e : QueueEntry) : QueueKey := ⟨e.period, e.number⟩

/-- An operation on a queue. -/
inductive QueueCall where
  | insert (id : TaskId) (period : Duration)
  | insertFront (id : TaskId) (period : Duration)
  | remove (id : TaskId)
  | pop
  | clear
deriving DecidableEq, Repr

/-- The answer of an operation. -/
inductive QueueReply where
  /-- Whether the task joined the queue; it does not if it is there. -/
  | joined (new : Bool)
  /-- Whether the task was there. -/
  | removed (present : Bool)
  /-- The first task, if there was one. -/
  | popped (task : Option TaskId)
  | cleared
deriving DecidableEq, Repr

/-- What can be seen of a queue. -/
structure QueueView where
  /-- The tasks in the order in which they run. -/
  ids : List TaskId
  /-- Their number. -/
  size : Nat
  /-- Whether there are none. -/
  isEmpty : Bool
  /-- The first of them, with its period. -/
  head? : Option (TaskId × Duration)
  /-- Whether a task is among them. -/
  contains : TaskId → Bool
  /-- The answer that an operation would get. -/
  reply : QueueCall → QueueReply

/-- The ready tasks as two maps. -/
structure IndexedQueue where
  /-- The tasks in the order of their keys. -/
  order : List QueueEntry
  /-- The key of every queued task. -/
  index : Table TaskId QueueKey
  /-- The number of the next arrival. -/
  nextBack : Int64
  /-- The number of the latest job put back. -/
  lastFront : Int64

namespace IndexedQueue

/-- The queue without tasks. -/
def empty : IndexedQueue := ⟨[], Table.empty, 0, 0⟩

instance : Inhabited IndexedQueue := ⟨empty⟩

/-- Enter a task under a key in both maps. -/
def push (q : IndexedQueue) (id : TaskId) (key : QueueKey) : IndexedQueue :=
  { q with
    order := ReadyQueue.place (key.entry id) q.order
    index := q.index.insert id key }

/-- Enqueue a task under the next number of the arrivals, and tell whether it was absent. -/
def insert (q : IndexedQueue) (id : TaskId) (period : Duration) : Bool × IndexedQueue :=
  if q.index.contains id then (false, q)
  else (true, { q with nextBack := q.nextBack + 1 }.push id ⟨period, q.nextBack⟩)

/-- Enqueue a task under the next number of the jobs put back, and tell whether it was absent. -/
def insertFront (q : IndexedQueue) (id : TaskId) (period : Duration) : Bool × IndexedQueue :=
  if q.index.contains id then (false, q)
  else (true, { q with lastFront := q.lastFront - 1 }.push id ⟨period, q.lastFront - 1⟩)

/-- Take a task out under the key that the index has for it, and tell whether it has one. -/
def remove (q : IndexedQueue) (id : TaskId) : Bool × IndexedQueue :=
  match q.index.get? id with
  | some key =>
      (true,
        { q with
          order := q.order.filter (·.key ≠ key)
          index := q.index.erase id })
  | none => (false, q)

/-- Take the first task out. -/
def pop (q : IndexedQueue) : Option TaskId × IndexedQueue :=
  match q.order with
  | [] => (none, q)
  | e :: rest => (some e.id, { q with order := rest, index := q.index.erase e.id })

/-- Empty both maps; the counters go on. -/
def clear (q : IndexedQueue) : IndexedQueue := { q with order := [], index := Table.empty }

/-- The first task to run, with its period. -/
def head? (q : IndexedQueue) : Option (TaskId × Duration) :=
  q.order.head?.map fun e => (e.id, e.period)

/-- Whether a task is queued. -/
def contains (q : IndexedQueue) (id : TaskId) : Bool := q.index.contains id

/-- The number of queued tasks. -/
def size (q : IndexedQueue) : Nat := q.order.length

/-- Whether no task is queued. -/
def isEmpty (q : IndexedQueue) : Bool := q.order.isEmpty

/-- The tasks in the order in which they run. -/
def ids (q : IndexedQueue) : List TaskId := q.order.map (·.id)

/-- The answer of an operation, and the queue after it. -/
def call (q : IndexedQueue) : QueueCall → QueueReply × IndexedQueue
  | .insert id period => (.joined (q.insert id period).1, (q.insert id period).2)
  | .insertFront id period => (.joined (q.insertFront id period).1, (q.insertFront id period).2)
  | .remove id => (.removed (q.remove id).1, (q.remove id).2)
  | .pop => (.popped q.pop.1, q.pop.2)
  | .clear => (.cleared, q.clear)

/-- What can be seen of the two maps. -/
def view (q : IndexedQueue) : QueueView :=
  ⟨q.ids, q.size, q.isEmpty, q.head?, q.contains, fun c => (q.call c).1⟩

end IndexedQueue

namespace ReadyQueue

/-- The answer of an operation, and the queue after it. -/
def call (q : ReadyQueue) : QueueCall → QueueReply × ReadyQueue
  | .insert id period => (.joined (!q.contains id), q.insert id period)
  | .insertFront id period => (.joined (!q.contains id), q.insertFront id period)
  | .remove id => (.removed (q.contains id), q.remove id)
  | .pop =>
      match q.pop? with
      | some (id, rest) => (.popped (some id), rest)
      | none => (.popped none, q)
  | .clear => (.cleared, q.clear)

/-- What can be seen of a queue. -/
def view (q : ReadyQueue) : QueueView :=
  ⟨q.ids, q.size, q.isEmpty, q.head?, q.contains, fun c => (q.call c).1⟩

end ReadyQueue

end RateMonotonic
