/-
**The registry**: the admitted tasks in the order of their registration.

Whoever works on the registry holds it: entering fails while somebody else is inside, and every
operation from outside enters first.

Main definitions:
* `RegistryEntry` — a registered task and its handle;
* `Registry` — the entries, and whether somebody holds them;
* `Registry.enter`, `Registry.leave` — taking hold and letting go;
* `Registry.find?`, `Registry.insert`, `Registry.remove` — for the holder;
* `Registry.register`, `Registry.deregister`, `Registry.lookup`, `Registry.listing` — from outside.

Main results:
* `Registry.enter_of_held` — a held registry lets nobody in;
* `Registry.contains_iff` — a task is registered exactly when its number is listed.
-/

import RateMonotonic.Admission
import RateMonotonic.Error

set_option relaxedAutoImplicit false
set_option autoImplicit false

namespace RateMonotonic

/-- A registered task and the handle found for it. -/
structure RegistryEntry where
  /-- What the task was registered with. -/
  info : TaskInfo
  /-- The execution context behind it. -/
  handle : ExecHandle
deriving DecidableEq, Repr, Inhabited

/-- The registered tasks, oldest first. -/
structure Registry where
  /-- The tasks in the order of registration. -/
  entries : List RegistryEntry
  /-- Whether somebody holds the registry. -/
  held : Bool
deriving DecidableEq, Repr, Inhabited

namespace Registry

/-- The registry without tasks, held by nobody. -/
def empty : Registry := ⟨[], false⟩

/-- Take hold of the registry. -/
def enter (r : Registry) : Except SchedError Registry :=
  if r.held then .error .lockUnavailable else .ok { r with held := true }

/-- Let go of the registry. -/
def leave (r : Registry) : Registry := { r with held := false }

/-! ### For the holder -/

/-- The entry of a task. -/
def find? (r : Registry) (id : TaskId) : Option RegistryEntry :=
  r.entries.find? (·.info.id = id)

/-- Whether a task is registered. -/
def contains (r : Registry) (id : TaskId) : Bool := r.entries.any (·.info.id = id)

/-- Append a task, unless it is registered. -/
def insert (r : Registry) (e : RegistryEntry) : Except SchedError Registry :=
  if r.contains e.info.id then .error (.alreadyRegistered e.info.id)
  else .ok { r with entries := r.entries ++ [e] }

/-- Take a task out; the order of the others stays. -/
def remove (r : Registry) (id : TaskId) : Except SchedError (RegistryEntry × Registry) :=
  match r.find? id with
  | none => .error (.notFound id)
  | some e => .ok (e, { r with entries := r.entries.eraseP (·.info.id = id) })

/-- The tasks' numbers in order. -/
def ids (r : Registry) : List TaskId := r.entries.map (·.info.id)

/-- What the tasks were registered with, in order. -/
def infos (r : Registry) : List TaskInfo := r.entries.map (·.info)

/-- Budget and period of every task, for admission. -/
def timings (r : Registry) : List (Duration × Duration) :=
  r.entries.map fun e => (e.info.budget, e.info.period)

/-! ### From outside -/

/-- Enter, append a task and leave. -/
def register (r : Registry) (e : RegistryEntry) : Except SchedError Registry := do
  let inside ← r.enter
  return (← inside.insert e).leave

/-- Enter, take a task out and leave. -/
def deregister (r : Registry) (id : TaskId) : Except SchedError (RegistryEntry × Registry) := do
  let inside ← r.enter
  let (e, rest) ← inside.remove id
  return (e, rest.leave)

/-- Enter, look a task up and leave. -/
def lookup (r : Registry) (id : TaskId) : Except SchedError RegistryEntry := do
  let inside ← r.enter
  match inside.find? id with
  | some e => return e
  | none => throw (.notFound id)

/-- Enter, list the tasks and leave. -/
def listing (r : Registry) : Except SchedError (List TaskInfo) := do
  let inside ← r.enter
  return inside.infos

/-! ### Holding and membership -/

theorem enter_of_held {r : Registry} (h : r.held = true) : r.enter = .error .lockUnavailable := by
  simp [enter, h]

theorem contains_iff {r : Registry} {id : TaskId} : r.contains id = true ↔ id ∈ r.ids := by
  simp [contains, ids]

theorem find?_eq_none_iff {r : Registry} {id : TaskId} :
    r.find? id = none ↔ r.contains id = false := by
  simp [find?, contains]

end Registry

end RateMonotonic
