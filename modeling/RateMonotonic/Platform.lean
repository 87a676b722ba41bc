/-
**Platforms**: how a task's number leads to an execution context, and who carries out priority
changes.

Main definitions:
* `Resolver` — from a task's number to its handle, if it is alive;
* `HandleTable` — a resolver whose answers are set by hand;
* `PriorityController` — elevates and resets handles, or refuses;
* `Platform.processes` — handles are processes of the operating system;
* `Platform.permissive` — every number but zero is alive and every change succeeds.
-/

import RateMonotonic.Error
import RateMonotonic.Priority
import RateMonotonic.Table

set_option relaxedAutoImplicit false
set_option autoImplicit false

namespace RateMonotonic

/-- From a task's number to the handle of its live execution context. -/
abbrev Resolver := TaskId → Option ExecHandle

/-- Handles set by hand. -/
abbrev HandleTable := Table TaskId ExecHandle

namespace HandleTable

/-- Every listed task has the handle of its own number. -/
def ofIds (ids : List TaskId) : HandleTable :=
  Table.ofList (ids.map fun id => (id, ⟨id.number⟩))

/-- The table as a resolver. -/
def resolver (t : HandleTable) : Resolver := t.get?

end HandleTable

/-- Carries out priority changes, or refuses them. -/
structure PriorityController where
  /-- Move a handle into a class at a level. -/
  elevate : ExecHandle → SchedClass → Int32 → Except SchedError Unit
  /-- Return a handle to the time-sharing class. -/
  reset : ExecHandle → Except SchedError Unit

/-- A resolver and a controller that belong together. -/
structure Platform where
  resolver : Resolver
  controller : PriorityController

namespace Platform

/-- Every number but zero is alive, and every change succeeds. -/
def permissive : Platform where
  resolver id := if id.number = 0 then none else some ⟨id.number⟩
  controller := ⟨fun _ _ _ => .ok (), fun _ => .ok ()⟩

/-- Whether a handle's number can be the number of a process. -/
def inProcessRange (h : ExecHandle) : Bool := decide (h.number.toNat < 2 ^ 31)

/-- Set the class and level of a process.  Number zero is the caller itself.  A real-time class
takes the levels from 1 to 99 and needs the privilege to enter it. -/
def setClass (isAlive : UInt32 → Bool) (privileged : Bool) (h : ExecHandle) (c : SchedClass)
    (level : Int32) : Except SchedError Unit :=
  if !inProcessRange h then .error (.priorityChange h "handle outside pid range")
  else if h.number ≠ 0 ∧ !isAlive h.number then
    .error (.priorityChange h "No such process (os error 3)")
  else if c = .normal then .ok ()
  else if level < 1 ∨ 99 < level then
    .error (.priorityChange h "Invalid argument (os error 22)")
  else if privileged then .ok ()
  else .error (.priorityChange h "Operation not permitted (os error 1)")

/-- Handles are processes of the operating system: a task is alive when the process of its number
is, and zero is no process. -/
def processes (isAlive : UInt32 → Bool) (privileged : Bool) : Platform where
  resolver id := if id.number = 0 then none else if isAlive id.number then some ⟨id.number⟩ else none
  controller :=
    ⟨fun h c level => setClass isAlive privileged h c level,
      fun h => setClass isAlive privileged h .normal 0⟩

/-- Whether a process directory of this number is among the listed directories. -/
def listsProcess (directories : List String) (number : UInt32) : Bool :=
  directories.contains (Decimal.text number.toNat)

end Platform

end RateMonotonic
