/-
**Configuration** of a scheduler, and the range of every value.

Main definitions:
* `Config` — the values; `Config.default` — those used when nothing else is said;
* `Config.Fault`, `Config.check` — the first value out of range, in the order of the fields;
* `Config.isRealizable` — whether threads and wakes can be set up with the values at all;
* `Config.Setting`, `Config.build` — a configuration from settings, one after the other;
* `Config.text` — a configuration as it describes itself.

Main results:
* `Config.check_eq_ok_iff` — a configuration is accepted exactly when every value is in range.
-/

import RateMonotonic.Admission
import RateMonotonic.Error
import RateMonotonic.Priority
import RateMonotonic.Text.Quoted

set_option relaxedAutoImplicit false
set_option autoImplicit false

namespace RateMonotonic

/-- The values that a scheduler is set up with. -/
structure Config where
  /-- The bound on total utilization, in permille. -/
  utilizationBound : UInt64
  /-- The class of a task that holds the slot. -/
  rtClass : SchedClass
  /-- The level of a task that holds the slot. -/
  rtLevel : Int32
  /-- The longest wait for the registry. -/
  lockTimeout : Duration
  /-- How many wakes wait for the dispatcher at most. -/
  wakeCapacity : UInt64
  /-- The time from registration to first release. -/
  firstReleaseOffset : Duration
  /-- The name of the dispatcher's thread. -/
  dispatcherName : String
  /-- The name of the timers' thread. -/
  timerName : String
deriving DecidableEq, Repr

namespace Config

/-- The greatest real-time level. -/
def maxLevel : Int32 := 99

/-- The longest accepted wait for the registry. -/
def maxLockTimeout : Duration := Duration.ofSeconds 60

/-- The longest accepted time from registration to first release. -/
def maxFirstReleaseOffset : Duration := Duration.ofSeconds 86400

/-- The values used when nothing else is said. -/
def default : Config where
  utilizationBound := 693
  rtClass := .fifo
  rtLevel := maxLevel
  lockTimeout := Duration.ofMillis 100
  wakeCapacity := 64
  firstReleaseOffset := Duration.zero
  dispatcherName := "rms-dispatcher"
  timerName := "rms-timer"

instance : Inhabited Config := ⟨default⟩

/-! ### Ranges -/

/-- A value out of range. -/
inductive Fault where
  | utilizationBound
  | rtClass
  | rtLevel
  | lockTimeout
  | firstReleaseOffset
  | wakeCapacity
deriving DecidableEq, Repr

/-- The wording of a value out of range. -/
def Fault.reason : Fault → String
  | .utilizationBound => "utilization_bound_permille must be in 1..=1000"
  | .rtClass => "rt_class must be a real-time class"
  | .rtLevel => "rt_priority must be in 1..=99"
  | .lockTimeout => "lock_timeout must be in (0, 60s]"
  | .firstReleaseOffset => "first_release_offset must be at most 24h"
  | .wakeCapacity => "wake_capacity must be greater than 0"

/-- A value out of range as an error of the scheduler. -/
def Fault.error (f : Fault) : SchedError := .invalidConfig f.reason

/-- The first value out of range, in the order of the fields. -/
def fault? (c : Config) : Option Fault :=
  if c.utilizationBound = 0 ∨ 1000 < c.utilizationBound then some .utilizationBound
  else if c.rtClass = .normal then some .rtClass
  else if c.rtLevel < 1 ∨ maxLevel < c.rtLevel then some .rtLevel
  else if c.lockTimeout.isZero ∨ maxLockTimeout < c.lockTimeout then some .lockTimeout
  else if maxFirstReleaseOffset < c.firstReleaseOffset then some .firstReleaseOffset
  else if c.wakeCapacity = 0 then some .wakeCapacity
  else none

/-- The configuration itself, if every value is in range. -/
def check (c : Config) : Except SchedError Config :=
  match c.fault? with
  | some f => .error f.error
  | none => .ok c

/-- Every value is in range. -/
structure Valid (c : Config) : Prop where
  bound : c.utilizationBound ≠ 0 ∧ c.utilizationBound ≤ 1000
  realTime : c.rtClass ≠ .normal
  level : 1 ≤ c.rtLevel ∧ c.rtLevel ≤ maxLevel
  timeout : c.lockTimeout.isZero = false ∧ c.lockTimeout ≤ maxLockTimeout
  offset : c.firstReleaseOffset ≤ maxFirstReleaseOffset
  capacity : c.wakeCapacity ≠ 0

/-- A test with a fault finds none if it fails and no later one finds any. -/
theorem ite_some_eq_none_iff {p : Prop} [Decidable p] {f : Fault} {later : Option Fault} :
    (if p then some f else later) = none ↔ ¬p ∧ later = none := by
  split <;> simp_all

/-- **Accepted are exactly the configurations in range.** -/
theorem check_eq_ok_iff {c : Config} : c.check = .ok c ↔ c.Valid := by
  have hle (a b : Duration) : ¬a < b ↔ b ≤ a := by
    rw [Duration.lt_def, Duration.le_def, Nat.not_lt]
  constructor
  · intro h
    have hf : c.fault? = none := by
      unfold check at h
      split at h
      · cases h
      · assumption
    simp only [fault?, ite_some_eq_none_iff] at hf
    obtain ⟨h1, h2, h3, h4, h5, h6, -⟩ := hf
    simp only [not_or, hle, Bool.not_eq_true] at h1 h3 h4 h5
    exact ⟨⟨h1.1, UInt64.not_lt.1 h1.2⟩, h2, ⟨Int32.not_lt.1 h3.1, Int32.not_lt.1 h3.2⟩, h4, h5, h6⟩
  · intro h
    have h1 : ¬(c.utilizationBound = 0 ∨ 1000 < c.utilizationBound) :=
      fun h' => h'.elim h.bound.1 (UInt64.not_lt.2 h.bound.2)
    have h3 : ¬(c.rtLevel < 1 ∨ maxLevel < c.rtLevel) :=
      fun h' => h'.elim (Int32.not_lt.2 h.level.1) (Int32.not_lt.2 h.level.2)
    have h4 : ¬(c.lockTimeout.isZero = true ∨ maxLockTimeout < c.lockTimeout) :=
      fun h' => h'.elim (by simp [h.timeout.1]) ((hle _ _).2 h.timeout.2)
    have h5 : ¬maxFirstReleaseOffset < c.firstReleaseOffset := (hle _ _).2 h.offset
    simp only [check, fault?, h1, h.realTime, h3, h4, h5, h.capacity, if_false]

/-! ### Setting up -/

/-- Whether a text can be the name of a thread: names end at the character NUL. -/
def isThreadName (name : String) : Bool := !name.toList.contains '\x00'

/-- The bytes that one waiting wake takes. -/
def wakeBytes : Nat := 16

/-- The bytes that one piece of memory has at most. -/
def maxMemory : Nat := 2 ^ 63 - 1

/-- Whether the threads and the room for wakes can be set up.  This is no question of range: the
check lets values pass that no machine can carry out. -/
def isRealizable (c : Config) : Bool :=
  isThreadName c.timerName && isThreadName c.dispatcherName &&
    decide (c.wakeCapacity.toNat * wakeBytes ≤ maxMemory)

/-! ### Settings -/

/-- One value, or one group of values, to be set. -/
inductive Setting where
  | utilizationBound (permille : UInt64)
  | rtPriority (rtClass : SchedClass) (level : Int32)
  | lockTimeout (timeout : Duration)
  | wakeCapacity (capacity : UInt64)
  | firstReleaseOffset (offset : Duration)
  | threadNames (dispatcher timer : String)
deriving DecidableEq, Repr

/-- Set a value. -/
def set (c : Config) : Setting → Config
  | .utilizationBound permille => { c with utilizationBound := permille }
  | .rtPriority rtClass level => { c with rtClass := rtClass, rtLevel := level }
  | .lockTimeout timeout => { c with lockTimeout := timeout }
  | .wakeCapacity capacity => { c with wakeCapacity := capacity }
  | .firstReleaseOffset offset => { c with firstReleaseOffset := offset }
  | .threadNames dispatcher timer => { c with dispatcherName := dispatcher, timerName := timer }

/-- The default configuration after these settings, if every value is in range. -/
def build (settings : List Setting) : Except SchedError Config :=
  (settings.foldl set default).check

/-! ### Text -/

/-- The word for a class in descriptions. -/
def className : SchedClass → String
  | .fifo => "Fifo"
  | .roundRobin => "RoundRobin"
  | .normal => "Normal"

/-- A configuration as it describes itself. -/
def text (c : Config) : String :=
  "SchedulerConfig \x7b utilization_bound_permille: " ++ Decimal.text c.utilizationBound.toNat ++
    ", rt_class: " ++ className c.rtClass ++
    ", rt_priority: " ++ Decimal.signedText c.rtLevel.toInt ++
    ", lock_timeout: " ++ c.lockTimeout.text ++
    ", wake_capacity: " ++ Decimal.text c.wakeCapacity.toNat ++
    ", first_release_offset: " ++ c.firstReleaseOffset.text ++
    ", dispatcher_thread_name: " ++ Quoted.text c.dispatcherName ++
    ", timer_thread_name: " ++ Quoted.text c.timerName ++ " \x7d"

end Config

end RateMonotonic
