/-
**Durations**: spans of time in whole nanoseconds, below `2 ^ 64` seconds.

A duration is its number of nanoseconds.  Whole seconds, the part below a second and whole
milliseconds are read off that number, so comparing durations is comparing numbers.

Main definitions:
* `Duration` — the span;
* `Duration.ofParts?`, `Duration.ofMillis` — durations from seconds and nanoseconds, and from
  milliseconds;
* `Duration.text` — the span in its largest unit with a nonzero whole part.

Main results:
* `Duration.ext` — durations of equal length are equal;
* `Duration.millis_ofMillis` — whole milliseconds are read back exactly.
-/

import RateMonotonic.Text.Decimal

set_option relaxedAutoImplicit false
set_option autoImplicit false

namespace RateMonotonic

/-- A span of time in nanoseconds; its whole seconds fit in 64 bits. -/
structure Duration where
  /-- The length in nanoseconds. -/
  nanos : Nat
  /-- The whole seconds fit in 64 bits. -/
  nanos_lt : nanos < 2 ^ 64 * 10 ^ 9
deriving DecidableEq, Repr

namespace Duration

@[ext] theorem ext {d e : Duration} (h : d.nanos = e.nanos) : d = e := by
  cases d
  cases e
  simp_all

/-- The empty span. -/
def zero : Duration := ⟨0, by decide⟩

instance : Inhabited Duration := ⟨zero⟩

/-- The duration of this many nanoseconds, if it is in range. -/
def ofNanos? (n : Nat) : Option Duration :=
  if h : n < 2 ^ 64 * 10 ^ 9 then some ⟨n, h⟩ else none

/-- The duration of these seconds and nanoseconds together, if it is in range. -/
def ofParts? (seconds nanos : Nat) : Option Duration := ofNanos? (seconds * 10 ^ 9 + nanos)

/-- The duration of this many milliseconds. -/
def ofMillis (ms : UInt64) : Duration :=
  ⟨ms.toNat * 10 ^ 6, by have := ms.toNat_lt; omega⟩

/-- The duration of this many seconds. -/
def ofSeconds (s : UInt64) : Duration :=
  ⟨s.toNat * 10 ^ 9, by have := s.toNat_lt; omega⟩

/-- The whole seconds of a duration. -/
def seconds (d : Duration) : Nat := d.nanos / 10 ^ 9

/-- The nanoseconds beyond the whole seconds. -/
def subsecond (d : Duration) : Nat := d.nanos % 10 ^ 9

/-- The whole milliseconds of a duration. -/
def millis (d : Duration) : Nat := d.nanos / 10 ^ 6

/-- Whether a duration is the empty span. -/
def isZero (d : Duration) : Bool := d.nanos == 0

instance : LE Duration := ⟨fun d e => d.nanos ≤ e.nanos⟩

instance : LT Duration := ⟨fun d e => d.nanos < e.nanos⟩

instance (d e : Duration) : Decidable (d ≤ e) := inferInstanceAs (Decidable (d.nanos ≤ e.nanos))

instance (d e : Duration) : Decidable (d < e) := inferInstanceAs (Decidable (d.nanos < e.nanos))

theorem le_def {d e : Duration} : d ≤ e ↔ d.nanos ≤ e.nanos := Iff.rfl

theorem lt_def {d e : Duration} : d < e ↔ d.nanos < e.nanos := Iff.rfl

theorem seconds_lt (d : Duration) : d.seconds < 2 ^ 64 := by
  have := d.nanos_lt
  unfold seconds
  omega

theorem millis_ofMillis (ms : UInt64) : (ofMillis ms).millis = ms.toNat := by
  simp [ofMillis, millis]

/-- Seconds and nanoseconds give the duration back. -/
theorem ofParts?_seconds_subsecond (d : Duration) : ofParts? d.seconds d.subsecond = some d := by
  have h : d.seconds * 10 ^ 9 + d.subsecond = d.nanos := by
    unfold seconds subsecond
    omega
  unfold ofParts?
  rw [h]
  exact dif_pos d.nanos_lt

/-! ### Text -/

/-- The digits after the point of a part below `10 ^ places`, without trailing zeros. -/
def fraction (places part : Nat) : List Char :=
  let row := Decimal.digits part
  let full := List.replicate (places - row.length) '0' ++ row
  (full.reverse.dropWhile (· == '0')).reverse

/-- A number of nanoseconds in a unit of `10 ^ places` nanoseconds, exactly. -/
def inUnit (unit : String) (places n : Nat) : String :=
  let part := n % 10 ^ places
  let whole := Decimal.text (n / 10 ^ places)
  if part = 0 then whole ++ unit
  else whole ++ "." ++ String.ofList (fraction places part) ++ unit

/-- A duration in the largest of seconds, milliseconds, microseconds and nanoseconds in which its
whole part is not zero, with as many decimals as it needs. -/
def text (d : Duration) : String :=
  if 10 ^ 9 ≤ d.nanos then inUnit "s" 9 d.nanos
  else if 10 ^ 6 ≤ d.nanos then inUnit "ms" 6 d.nanos
  else if 10 ^ 3 ≤ d.nanos then inUnit "µs" 3 d.nanos
  else inUnit "ns" 0 d.nanos

end Duration

end RateMonotonic
