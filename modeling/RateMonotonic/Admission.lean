/-
**Admission control**: whether one more task fits within the bound on processor utilization.

A task's utilization is its budget over its period in permille, rounded down.  All values are
64-bit words that stop at their greatest value instead of wrapping; the product of a budget with a
thousand is taken in 128 bits.

Main definitions:
* `saturate` — the greatest word that is not above a number;
* `utilization`, `totalUtilization` — of one task, and of a list of tasks;
* `Admission` — a decision with what it rests on; `Admission.evaluate` takes it;
* `Admission.inTurn` — decisions on one candidate after the other;
* `defaultBound` — the bound used when none is configured.

Main results:
* `saturate_add` — adding saturated words saturates the sum.
-/

import RateMonotonic.Time.Duration

set_option relaxedAutoImplicit false
set_option autoImplicit false

namespace RateMonotonic

/-- A number in a word of this many bits; numbers that do not fit stop at the greatest one. -/
def saturate (bits n : Nat) : Nat := min n (2 ^ bits - 1)

theorem saturate_of_lt {bits n : Nat} (h : n < 2 ^ bits) : saturate bits n = n := by
  unfold saturate
  omega

theorem saturate_le (bits n : Nat) : saturate bits n ≤ 2 ^ bits - 1 := by
  unfold saturate
  omega

theorem saturate_add (bits m n : Nat) :
    saturate bits (saturate bits m + n) = saturate bits (m + n) := by
  unfold saturate
  omega

/-- What a budget takes of its period, in permille.  An empty period cannot be served at all. -/
def utilization (budget period : Duration) : Nat :=
  if period.isZero then 2 ^ 64 - 1
  else saturate 64 (saturate 128 (budget.nanos * 1000) / period.nanos)

/-- What tasks with these budgets and periods take together, in permille. -/
def totalUtilization (timings : List (Duration × Duration)) : Nat :=
  timings.foldl (fun total t => saturate 64 (total + utilization t.1 t.2)) 0

/-- The bound that suffices for any number of tasks, in permille. -/
def defaultBound : Nat := 693

/-- A decision on a candidate, with what it rests on.  All values are in permille. -/
structure Admission where
  /-- What the candidate asks for. -/
  requested : Nat
  /-- What the admitted tasks take. -/
  existing : Nat
  /-- The bound on both together. -/
  bound : Nat
deriving DecidableEq, Repr

namespace Admission

/-- What the admitted tasks and the candidate take together. -/
def total (a : Admission) : Nat := saturate 64 (a.existing + a.requested)

/-- Whether the candidate fits. -/
def admitted (a : Admission) : Bool := decide (a.total ≤ a.bound)

/-- Decide on a candidate beside tasks with these budgets and periods. -/
def evaluate (bound : Nat) (timings : List (Duration × Duration)) (budget period : Duration) :
    Admission where
  requested := utilization budget period
  existing := totalUtilization timings
  bound := bound

end Admission

/-- Whether a candidate fits beside tasks with these budgets and periods. -/
def fits (bound : Nat) (timings : List (Duration × Duration)) (budget period : Duration) : Bool :=
  (Admission.evaluate bound timings budget period).admitted

/-- Decide on candidates one after the other, each beside the given tasks and the candidates that
fitted before it.  With every decision comes the total after it. -/
def Admission.inTurn (bound : Nat) (timings : List (Duration × Duration)) :
    List (Duration × Duration) → List (Admission × Nat)
  | [] => []
  | (budget, period) :: rest =>
      let a := Admission.evaluate bound timings budget period
      let next := if a.admitted then timings ++ [(budget, period)] else timings
      (a, totalUtilization next) :: Admission.inTurn bound next rest

end RateMonotonic
