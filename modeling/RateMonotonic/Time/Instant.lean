/-
**Instants**: points in time on a clock that counts seconds in a signed 64-bit number.

An instant is its distance from the clock's start in nanoseconds, possibly negative.  Adding a
duration fails when the sum leaves the clock's range.

Main definitions:
* `Instant` — the point in time;
* `Instant.add?` — a later instant, if the clock can show it;
* `Instant.timeTo?` — the time left until another instant.

Main results:
* `Instant.nanos_add?` — an instant that exists is exactly the sum;
* `Instant.timeTo?_eq_some_iff` — the time left is positive and leads exactly to the other instant.
-/

import RateMonotonic.Time.Duration

set_option relaxedAutoImplicit false
set_option autoImplicit false

namespace RateMonotonic

/-- A point in time: nanoseconds from the start of a clock with 64-bit signed seconds. -/
structure Instant where
  /-- The distance from the clock's start. -/
  nanos : Int
  /-- The seconds fit in 64 bits, downwards. -/
  le_nanos : -(2 ^ 63 * 10 ^ 9) ≤ nanos
  /-- The seconds fit in 64 bits, upwards. -/
  nanos_lt : nanos < 2 ^ 63 * 10 ^ 9
deriving DecidableEq, Repr

namespace Instant

@[ext] theorem ext {s t : Instant} (h : s.nanos = t.nanos) : s = t := by
  cases s
  cases t
  simp_all

/-- The start of the clock. -/
def start : Instant := ⟨0, by decide, by decide⟩

instance : Inhabited Instant := ⟨start⟩

/-- The instant at this distance from the clock's start, if the clock can show it. -/
def ofNanos? (n : Int) : Option Instant :=
  if h : -(2 ^ 63 * 10 ^ 9) ≤ n ∧ n < 2 ^ 63 * 10 ^ 9 then some ⟨n, h.1, h.2⟩ else none

/-- The instant a duration later, if the clock can show it. -/
def add? (t : Instant) (d : Duration) : Option Instant :=
  if h : t.nanos + d.nanos < 2 ^ 63 * 10 ^ 9 then
    some ⟨t.nanos + d.nanos, by have := t.le_nanos; omega, h⟩
  else none

/-- The time left until an instant, if that instant is still to come. -/
def timeTo? (now next : Instant) : Option Duration :=
  if now.nanos < next.nanos then
    some ⟨(next.nanos - now.nanos).toNat, by
      have := now.le_nanos
      have := next.nanos_lt
      omega⟩
  else none

instance : LE Instant := ⟨fun s t => s.nanos ≤ t.nanos⟩

instance : LT Instant := ⟨fun s t => s.nanos < t.nanos⟩

instance (s t : Instant) : Decidable (s ≤ t) := inferInstanceAs (Decidable (s.nanos ≤ t.nanos))

instance (s t : Instant) : Decidable (s < t) := inferInstanceAs (Decidable (s.nanos < t.nanos))

theorem le_def {s t : Instant} : s ≤ t ↔ s.nanos ≤ t.nanos := Iff.rfl

theorem lt_def {s t : Instant} : s < t ↔ s.nanos < t.nanos := Iff.rfl

theorem nanos_add? {s t : Instant} {d : Duration} (h : s.add? d = some t) :
    t.nanos = s.nanos + d.nanos := by
  unfold add? at h
  split at h
  · cases h
    rfl
  · cases h

theorem timeTo?_eq_none_iff {now next : Instant} : now.timeTo? next = none ↔ ¬ now < next := by
  simp [timeTo?, lt_def]

/-- **The time left** is positive and leads exactly to the other instant. -/
theorem timeTo?_eq_some_iff {now next : Instant} {d : Duration} :
    now.timeTo? next = some d ↔ 0 < d.nanos ∧ now.add? d = some next := by
  have hd := d.nanos_lt
  have hn := next.nanos_lt
  constructor
  · intro h
    unfold timeTo? at h
    split at h
    · next hlt =>
        cases h
        simp only
        refine ⟨by omega, ?_⟩
        have hsum : now.nanos + ((next.nanos - now.nanos).toNat : Int) = next.nanos := by omega
        simp only [add?, hsum, hn, dif_pos]
    · cases h
  · rintro ⟨hpos, hadd⟩
    have hsum := nanos_add? hadd
    have hlt : now.nanos < next.nanos := by omega
    simp only [timeTo?, hlt, if_true, Option.some.injEq]
    apply Duration.ext
    simp only
    omega

end Instant

end RateMonotonic
