/-
**Configurations in JSON**: an object in which any field may be missing.

A missing field has its default value, and fields that are not known are skipped.

Main definitions:
* `SchedClass.json`, `SchedClass.reader` — scheduling classes;
* `Config.json`, `Config.reader` — configurations;
* `Config.load` — a configuration from the bytes of a file, with every value in range.
-/

import RateMonotonic.Config
import RateMonotonic.Failure
import RateMonotonic.Json.Duration

set_option relaxedAutoImplicit false
set_option autoImplicit false

namespace RateMonotonic

open Json (RecordField Reader Value Variant)

/-- A class by its name. -/
def SchedClass.json (c : SchedClass) : Value := .string (Config.className c)

/-- Read a class. -/
def SchedClass.reader : Reader SchedClass :=
  Json.variant
    ([.fifo, .roundRobin, .normal].map fun c => (Config.className c, Variant.plain c))

namespace Config

/-- A configuration, field by field. -/
def json (c : Config) : Value :=
  .object
    [("utilization_bound_permille", .nat c.utilizationBound.toNat),
      ("rt_class", c.rtClass.json),
      ("rt_priority", .number c.rtLevel.toInt),
      ("lock_timeout", c.lockTimeout.json),
      ("wake_capacity", .nat c.wakeCapacity.toNat),
      ("first_release_offset", c.firstReleaseOffset.json),
      ("dispatcher_thread_name", .string c.dispatcherName),
      ("timer_thread_name", .string c.timerName)]

/-- A number of 64 bits. -/
def word64 : Reader UInt64 := (Json.natural (2 ^ 64)).map Nat.toUInt64

/-- A signed number of 32 bits. -/
def signed32 : Reader Int32 := (Json.integer (-2 ^ 31) (2 ^ 31 - 1)).map Int32.ofInt

/-- The fields of a configuration, each of them setting its value. -/
def fields : List (RecordField Config) :=
  [⟨"utilization_bound_permille", word64.update fun n c => { c with utilizationBound := n }⟩,
    ⟨"rt_class", SchedClass.reader.update fun k c => { c with rtClass := k }⟩,
    ⟨"rt_priority", signed32.update fun n c => { c with rtLevel := n }⟩,
    ⟨"lock_timeout", Duration.reader.update fun d c => { c with lockTimeout := d }⟩,
    ⟨"wake_capacity", word64.update fun n c => { c with wakeCapacity := n }⟩,
    ⟨"first_release_offset", Duration.reader.update fun d c => { c with firstReleaseOffset := d }⟩,
    ⟨"dispatcher_thread_name", Json.string.update fun s c => { c with dispatcherName := s }⟩,
    ⟨"timer_thread_name", Json.string.update fun s c => { c with timerName := s }⟩]

/-- Read a configuration, starting from the default one. -/
def reader : Reader Config := Json.record fields .skipped default some

/-- The configuration that a text describes, with every value in range. -/
def ofText (text : String) : Except Failure Config :=
  match Json.decode reader text.toList with
  | .error fault => .error (.json fault)
  | .ok c =>
      match c.check with
      | .error e => .error (.scheduler e)
      | .ok valid => .ok valid

/-- The configuration in the bytes of a file, if the file could be read. -/
def load (file : Option ByteArray) : Except Failure Config :=
  match file.bind String.fromUTF8? with
  | none => .error .transfer
  | some text => ofText text

end Config

end RateMonotonic
