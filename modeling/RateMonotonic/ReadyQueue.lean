/-
**The ready queue**: ready tasks by ascending period.

Tasks of equal period stand in the order of their arrival, except that a job put back after a
preemption stands ahead of its peers: it ran before any of them.  The order is kept by keys: an
arrival takes the next number of a counter that goes up, a job put back the next number of one that
goes down, and entries are sorted by period and then by number.

Main definitions:
* `ReadyQueue` — the entries in order and the two counters;
* `ReadyQueue.insert`, `ReadyQueue.insertFront` — enqueue behind, or ahead of, equal periods;
* `ReadyQueue.remove`, `ReadyQueue.pop?`, `ReadyQueue.clear`;
* `ReadyQueue.head?`, `ReadyQueue.contains`, `ReadyQueue.ids` — the views.

Main results:
* `ReadyQueue.insert_of_contains`, `ReadyQueue.insertFront_of_contains` — a queued task stays put;
* `ReadyQueue.contains_iff` — the two views of membership agree.
-/

import RateMonotonic.Task

set_option relaxedAutoImplicit false
set_option autoImplicit false

namespace RateMonotonic

/-- A queued task with its key: its period, and its number among equal periods. -/
structure QueueEntry where
  /-- The period that orders the task. -/
  period : Duration
  /-- The order among equal periods; jobs put back have negative numbers. -/
  number : Int64
  /-- The task. -/
  id : TaskId
deriving DecidableEq, Repr

/-- Whether an entry's key comes before another's. -/
def QueueEntry.before (e f : QueueEntry) : Bool :=
  decide (e.period < f.period) || (decide (e.period = f.period) && decide (e.number < f.number))

/-- Whether two entries have the same key. -/
def QueueEntry.sameKey (e f : QueueEntry) : Bool :=
  decide (e.period = f.period) && decide (e.number = f.number)

/-- The ready tasks in the order of their keys. -/
structure ReadyQueue where
  /-- The entries, first to run first. -/
  entries : List QueueEntry
  /-- The number of the next arrival. -/
  nextBack : Int64
  /-- The number of the latest job put back. -/
  lastFront : Int64
deriving DecidableEq, Repr

namespace ReadyQueue

/-- The queue without tasks. -/
def empty : ReadyQueue := ⟨[], 0, 0⟩

instance : Inhabited ReadyQueue := ⟨empty⟩

/-- Place an entry by its key; an entry of the same key makes room. -/
def place (e : QueueEntry) : List QueueEntry → List QueueEntry
  | [] => [e]
  | f :: rest =>
      if e.before f then e :: f :: rest
      -- Keys meet only after a counter has gone all the way round.
      else if e.sameKey f then e :: rest
      else f :: place e rest

/-- The tasks in the order in which they run. -/
def ids (q : ReadyQueue) : List TaskId := q.entries.map (·.id)

/-- Whether a task is queued. -/
def contains (q : ReadyQueue) (id : TaskId) : Bool := q.entries.any (·.id = id)

/-- The number of queued tasks. -/
def size (q : ReadyQueue) : Nat := q.entries.length

/-- Whether no task is queued. -/
def isEmpty (q : ReadyQueue) : Bool := q.entries.isEmpty

/-- The first task to run, with its period. -/
def head? (q : ReadyQueue) : Option (TaskId × Duration) :=
  q.entries.head?.map fun e => (e.id, e.period)

/-- Enqueue a task behind all of at most its period.  A queued task stays where it is. -/
def insert (q : ReadyQueue) (id : TaskId) (period : Duration) : ReadyQueue :=
  if q.contains id then q
  else
    { q with
      entries := place ⟨period, q.nextBack, id⟩ q.entries
      nextBack := q.nextBack + 1 }

/-- Enqueue a task ahead of all of at least its period, as a job that goes on after a preemption.
A queued task stays where it is. -/
def insertFront (q : ReadyQueue) (id : TaskId) (period : Duration) : ReadyQueue :=
  if q.contains id then q
  else
    { q with
      entries := place ⟨period, q.lastFront - 1, id⟩ q.entries
      lastFront := q.lastFront - 1 }

/-- Take a task out, wherever it stands. -/
def remove (q : ReadyQueue) (id : TaskId) : ReadyQueue :=
  { q with entries := q.entries.filter (·.id ≠ id) }

/-- Take the first task out. -/
def pop? (q : ReadyQueue) : Option (TaskId × ReadyQueue) :=
  match q.entries with
  | [] => none
  | e :: rest => some (e.id, { q with entries := rest })

/-- Take every task out; the counters go on. -/
def clear (q : ReadyQueue) : ReadyQueue := { q with entries := [] }

/-! ### Membership -/

theorem contains_iff {q : ReadyQueue} {id : TaskId} : q.contains id = true ↔ id ∈ q.ids := by
  simp [contains, ids]

theorem insert_of_contains {q : ReadyQueue} {id : TaskId} (h : q.contains id = true)
    (period : Duration) : q.insert id period = q := by
  simp [insert, h]

theorem insertFront_of_contains {q : ReadyQueue} {id : TaskId} (h : q.contains id = true)
    (period : Duration) : q.insertFront id period = q := by
  simp [insertFront, h]

theorem ids_remove (q : ReadyQueue) (id : TaskId) : (q.remove id).ids = q.ids.filter (· ≠ id) := by
  simp [remove, ids, List.filter_map]
  rfl

theorem remove_of_not_mem {q : ReadyQueue} {id : TaskId} (h : id ∉ q.ids) : q.remove id = q := by
  have hentries : q.entries.filter (·.id ≠ id) = q.entries := by
    refine List.filter_eq_self.2 fun e he => decide_eq_true fun hid => h ?_
    exact List.mem_map.2 ⟨e, he, hid⟩
  simp only [remove, hentries]

end ReadyQueue

end RateMonotonic
