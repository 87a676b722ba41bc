/-
**A configuration file overrides exactly what it says.**

A file is an object that gives some of the fields, each of them once, in any order.  Between them
there may be members with other keys and any values, and every text of JSON is allowed: spaces
anywhere, any spelling of the keys and strings, with characters of every kind.  The fields that the
file gives have their values from the file, all others have the default ones, and the outcome is
this configuration if every value is in range, and a fault of the configuration if not.

The members are read one after the other into a draft.  After some members the draft has the values
of the fields that they gave, and the default ones elsewhere; so the order does not matter.

Main definitions:
* `Config.Field` — the fields, with their keys and values;
* `Config.overlay` — the values of some fields, and the default ones elsewhere;
* `Config.Gives` — a text gives these fields the values of a configuration;
* `Config.InRange` — every value is in range, in numbers.

Main results:
* `Duration.reads`, `SchedClass.reads`, `Config.reads_field` — **every value that is written for a
  field is read back**;
* `Config.membersRead` — the draft after some members;
* `Config.gives_written` — for any fields and other members there is such a text;
* `Config.load_json` — what is written for a configuration in range is loaded back;
* `Config.load_given` — **what loading a file gives.**
-/

import Mathlib.Data.List.ReduceOption
import RateMonotonic.Json.Config
import RateMonotonic.Proofs.JsonReading

set_option relaxedAutoImplicit false
set_option autoImplicit false

namespace RateMonotonic

open Json (Gap IsValue Member MemberRead MembersRead Reads Spaces Spelling Spells Value)

variable {v : List Char}

/-! ### The types of the fields -/

theorem Duration.subsecond_lt (d : Duration) : d.subsecond < 2 ^ 32 := by
  unfold Duration.subsecond
  omega

/-- Both fields together are the duration. -/
theorem Duration.finish_parts (d : Duration) :
    (Duration.Draft.mk (some d.seconds) (some d.subsecond)).finish = some d := by
  rw [Duration.Draft.finish, Option.bind_eq_bind, Option.bind_some, Option.bind_some,
    Duration.ofParts?_seconds_subsecond]

/-- **A duration**, in any text of its two fields. -/
theorem Duration.reads {d : Duration} (h : Spells d.json v) : Reads Duration.reader v d := by
  cases h with
  | @object gap members pairs hlength hkeys hvalues =>
      obtain ⟨first, second, rfl⟩ := List.length_eq_two.1 hlength
      have hsecs : Reads (Json.natural (2 ^ 64)) first.item.value d.seconds :=
        Json.reads_natural (hvalues 0 (by simp) (by simp)) d.seconds_lt le_rfl
      have hnanos : Reads (Json.natural (2 ^ 32)) second.item.value d.subsecond :=
        Json.reads_natural (hvalues 1 (by simp) (by simp)) d.subsecond_lt (by decide)
      have hmembers : MembersRead Duration.fields .refused [] ⟨none, none⟩ [first, second]
          ⟨some d.seconds, some d.subsecond⟩ :=
        .cons (.known (hkeys 0 (by simp) (by simp)) rfl (by simp) (hsecs.updateField _ _))
          (.cons (.known (hkeys 1 (by simp) (by simp)) rfl (by simp) (hnanos.updateField _ _))
            (.nil _ _))
      exact Json.reads_record hmembers d.finish_parts gap

/-- **A class**, in any spelling of its name. -/
theorem SchedClass.reads {k : SchedClass} (h : Spells k.json v) : Reads SchedClass.reader v k :=
  Json.reads_variant h (by cases k <;> rfl)

namespace Config

theorem reads_word64 {n : UInt64} (h : Spells (.nat n.toNat) v) : Reads word64 v n := by
  have hread := (Json.reads_natural h n.toNat_lt le_rfl).map Nat.toUInt64
  rwa [Nat.toUInt64, UInt64.ofNat_toNat] at hread

theorem reads_signed32 {n : Int32} (h : Spells (.number n.toInt) v) : Reads signed32 v n := by
  have hhigh : n.toInt ≤ 2 ^ 31 - 1 := Int.le_sub_one_of_lt n.toInt_lt
  have hread := (Json.reads_integer h n.le_toInt hhigh (by decide) (by decide)).map Int32.ofInt
  rwa [Int32.ofInt_toInt] at hread

/-! ### Fields -/

/-- The fields of a configuration. -/
inductive Field where
  | utilizationBound
  | rtClass
  | rtLevel
  | lockTimeout
  | wakeCapacity
  | firstReleaseOffset
  | dispatcherName
  | timerName
deriving DecidableEq, Repr

namespace Field

def all : List Field :=
  [.utilizationBound, .rtClass, .rtLevel, .lockTimeout, .wakeCapacity, .firstReleaseOffset,
    .dispatcherName, .timerName]

/-- The key of a field. -/
def key : Field → String
  | .utilizationBound => "utilization_bound_permille"
  | .rtClass => "rt_class"
  | .rtLevel => "rt_priority"
  | .lockTimeout => "lock_timeout"
  | .wakeCapacity => "wake_capacity"
  | .firstReleaseOffset => "first_release_offset"
  | .dispatcherName => "dispatcher_thread_name"
  | .timerName => "timer_thread_name"

/-- What is written for a field. -/
def value (c : Config) : Field → Value
  | .utilizationBound => .nat c.utilizationBound.toNat
  | .rtClass => c.rtClass.json
  | .rtLevel => .number c.rtLevel.toInt
  | .lockTimeout => c.lockTimeout.json
  | .wakeCapacity => .nat c.wakeCapacity.toNat
  | .firstReleaseOffset => c.firstReleaseOffset.json
  | .dispatcherName => .string c.dispatcherName
  | .timerName => .string c.timerName

/-- Copy the value of a field. -/
def copy (c : Config) : Field → Config → Config
  | .utilizationBound, d => { d with utilizationBound := c.utilizationBound }
  | .rtClass, d => { d with rtClass := c.rtClass }
  | .rtLevel, d => { d with rtLevel := c.rtLevel }
  | .lockTimeout, d => { d with lockTimeout := c.lockTimeout }
  | .wakeCapacity, d => { d with wakeCapacity := c.wakeCapacity }
  | .firstReleaseOffset, d => { d with firstReleaseOffset := c.firstReleaseOffset }
  | .dispatcherName, d => { d with dispatcherName := c.dispatcherName }
  | .timerName, d => { d with timerName := c.timerName }

/-- A key leads to its field. -/
theorem find?_key (f : Field) : all.find? (·.key == f.key) = some f := by
  cases f <;> rfl

theorem key_injective {f g : Field} (h : f.key = g.key) : f = g := by
  have hf := find?_key f
  rw [h, find?_key g] at hf
  exact (Option.some.inj hf).symm

end Field

variable {c : Config} {chosen seen : List Field}

/-- A configuration is written field by field. -/
theorem json_eq (c : Config) : c.json = .object (Field.all.map fun f => (f.key, f.value c)) := rfl

theorem fields_name : fields.map (·.name) = Field.all.map Field.key := rfl

/-- A key that is no field's leads nowhere. -/
theorem find?_other {name : String} (h : ∀ f : Field, f.key ≠ name) :
    fields.find? (·.name == name) = none := by
  refine List.find?_eq_none.2 fun field hfield hname => ?_
  have hmem : field.name ∈ Field.all.map Field.key := fields_name ▸ List.mem_map_of_mem hfield
  obtain ⟨f, -, hf⟩ := List.mem_map.1 hmem
  exact h f (hf.trans (beq_iff_eq.1 hname))

/-- **Every value that is written for a field is read back**, and sets that field. -/
theorem reads_field {f : Field} (h : Spells (f.value c) v) :
    ∃ field, fields.find? (·.name == f.key) = some field ∧ Reads field.read v (f.copy c) := by
  cases f with
  | utilizationBound => exact ⟨_, rfl, (reads_word64 h).updateField _ _⟩
  | rtClass => exact ⟨_, rfl, (SchedClass.reads h).updateField _ _⟩
  | rtLevel => exact ⟨_, rfl, (reads_signed32 h).updateField _ _⟩
  | lockTimeout => exact ⟨_, rfl, (Duration.reads h).updateField _ _⟩
  | wakeCapacity => exact ⟨_, rfl, (reads_word64 h).updateField _ _⟩
  | firstReleaseOffset => exact ⟨_, rfl, (Duration.reads h).updateField _ _⟩
  | dispatcherName => exact ⟨_, rfl, (Json.reads_string h).updateField _ _⟩
  | timerName => exact ⟨_, rfl, (Json.reads_string h).updateField _ _⟩

/-- **The values of the chosen fields**, and the default ones elsewhere. -/
def overlay (c : Config) (chosen : List Field) : Config where
  utilizationBound :=
    if .utilizationBound ∈ chosen then c.utilizationBound else default.utilizationBound
  rtClass := if .rtClass ∈ chosen then c.rtClass else default.rtClass
  rtLevel := if .rtLevel ∈ chosen then c.rtLevel else default.rtLevel
  lockTimeout := if .lockTimeout ∈ chosen then c.lockTimeout else default.lockTimeout
  wakeCapacity := if .wakeCapacity ∈ chosen then c.wakeCapacity else default.wakeCapacity
  firstReleaseOffset :=
    if .firstReleaseOffset ∈ chosen then c.firstReleaseOffset else default.firstReleaseOffset
  dispatcherName := if .dispatcherName ∈ chosen then c.dispatcherName else default.dispatcherName
  timerName := if .timerName ∈ chosen then c.timerName else default.timerName

theorem overlay_nil (c : Config) : c.overlay [] = default := rfl

/-- The order does not matter. -/
theorem overlay_congr (h : ∀ f, f ∈ chosen ↔ f ∈ seen) : c.overlay chosen = c.overlay seen := by
  simp only [overlay, h]

theorem overlay_all (c : Config) : c.overlay Field.all = c := rfl

theorem copy_overlay (f : Field) : f.copy c (c.overlay seen) = c.overlay (f :: seen) := by
  cases f <;> simp [Field.copy, overlay]

/-! ### Members -/

/-- What a member of an object says: the value of a field of `c`, or nothing that is known. -/
inductive Says (c : Config) (m : Member) : Option Field → Prop
  | field {f : Field} : Spelling m.key f.key.toList → Spells (f.value c) m.item.value →
      Says c m (some f)
  | other {name : String} : Spelling m.key name.toList → (∀ f : Field, f.key ≠ name) →
      IsValue m.item.value → Says c m none

/-- **A text gives these fields** the values of a configuration, in this order, with any other
members between them. -/
def Gives (c : Config) (chosen : List Field) (text : List Char) : Prop :=
  ∃ before after gap members told, Spaces before ∧ Spaces after ∧
    List.Forall₂ (Says c) members told ∧ told.reduceOption = chosen ∧
    text = before ++ (Json.objectText gap members ++ after)

/-- **The draft after some members**: the values of the fields that they gave, and the default ones
elsewhere. -/
theorem membersRead {members : List Member} {told : List (Option Field)}
    (h : List.Forall₂ (Says c) members told) (hnodup : (told.reduceOption ++ seen).Nodup) :
    MembersRead fields .skipped (seen.map Field.key) (c.overlay seen) members
      (c.overlay (told.reduceOption ++ seen)) := by
  induction h generalizing seen with
  | nil => exact .nil _ _
  | @cons m said members told hsays _ ih =>
      cases hsays with
      | @field f hkey hvalue =>
          rw [List.reduceOption_cons_of_some, List.cons_append] at hnodup ⊢
          obtain ⟨field, hfind, hread⟩ := reads_field hvalue
          have hnew : f.key ∉ seen.map Field.key := by
            intro hmem
            obtain ⟨g, hg, hkeys⟩ := List.mem_map.1 hmem
            rw [Field.key_injective hkeys] at hg
            exact (List.nodup_cons.1 hnodup).1 (List.mem_append_right _ hg)
          have hrest : (told.reduceOption ++ f :: seen).Nodup :=
            List.perm_middle.nodup_iff.2 hnodup
          have hperm : c.overlay (told.reduceOption ++ f :: seen) =
              c.overlay (f :: (told.reduceOption ++ seen)) :=
            overlay_congr fun g => List.perm_middle.mem_iff
          have hmembers := ih hrest
          rw [← copy_overlay, hperm] at hmembers
          exact .cons (.known hkey hfind hnew hread) hmembers
      | other hkey hother hvalue =>
          rw [List.reduceOption_cons_of_none] at hnodup ⊢
          exact .cons (.skipped rfl hkey (find?_other hother) hvalue) (ih hnodup)

/-- **A text is read as what it gives**, and nothing is left of it. -/
theorem decode_given {text : List Char} (hnodup : chosen.Nodup) (h : c.Gives chosen text) :
    Json.decode reader text = .ok (c.overlay chosen) := by
  obtain ⟨before, after, gap, members, told, hbefore, hafter, hsays, rfl, rfl⟩ := h
  have hmembers : MembersRead fields .skipped [] default members (c.overlay told.reduceOption) := by
    rw [← overlay_nil c, ← List.append_nil told.reduceOption] at *
    exact membersRead hsays hnodup
  have hends : Json.Ends after := by
    rw [← List.append_nil after]
    exact Json.ends_nil.append hafter
  have hread : reader (before ++ (Json.objectText gap members ++ after)) =
      .ok (c.overlay told.reduceOption, after) :=
    Json.reads_record hmembers rfl gap before after hbefore hends
  have hspace : Json.skipSpace after = [] := by
    rw [← List.append_nil after, Json.skipSpace_append hafter]
    rfl
  simp [Json.decode, hread, bind, Except.bind, pure, Except.pure, hspace]

/-! ### Texts without spaces -/

/-- What a key with its value says. -/
inductive Tells (c : Config) : String × Value → Option Field → Prop
  | field (f : Field) : Tells c (f.key, f.value c) (some f)
  | other {name : String} {value : Value} : (∀ f : Field, f.key ≠ name) → Tells c (name, value) none

theorem Tells.says {pair : String × Value} {said : Option Field} (h : Tells c pair said) :
    Says c (Member.written pair) said := by
  cases h with
  | field f => exact .field (Json.spelling_flatMap _) (Json.spells_chars _)
  | @other name value hother =>
      exact .other (Json.spelling_flatMap _) hother (Json.spells_chars value).isValue

/-- **Any fields in any order, with any other members between them**, have a text that gives
them. -/
theorem gives_written {pairs : List (String × Value)} {told : List (Option Field)}
    (h : List.Forall₂ (Tells c) pairs told) :
    c.Gives told.reduceOption (Value.object pairs).chars := by
  refine ⟨[], [], Json.noGap, pairs.map Member.written, told, Json.spaces_nil, Json.spaces_nil, ?_,
    rfl, ?_⟩
  · exact List.forall₂_map_left_iff.2 (h.imp fun _ _ => Tells.says)
  · rw [Json.chars_object, List.append_nil, List.nil_append]

/-- A configuration gives all of its fields. -/
theorem gives_json (c : Config) : c.Gives Field.all c.json.chars := by
  have htells : List.Forall₂ (Tells c) (Field.all.map fun f => (f.key, f.value c))
      (Field.all.map some) := by
    rw [List.forall₂_map_left_iff, List.forall₂_map_right_iff, List.forall₂_same]
    exact fun f _ => Tells.field f
  rw [json_eq]
  exact gives_written htells

/-! ### Ranges -/

/-- **Every value is in range**, in numbers and nanoseconds. -/
structure InRange (c : Config) : Prop where
  bound : 1 ≤ c.utilizationBound.toNat ∧ c.utilizationBound.toNat ≤ 1000
  realTime : c.rtClass = .fifo ∨ c.rtClass = .roundRobin
  level : 1 ≤ c.rtLevel.toInt ∧ c.rtLevel.toInt ≤ 99
  timeout : 0 < c.lockTimeout.nanos ∧ c.lockTimeout.nanos ≤ 60 * 10 ^ 9
  offset : c.firstReleaseOffset.nanos ≤ 24 * 60 * 60 * 10 ^ 9
  capacity : c.wakeCapacity.toNat ≠ 0

theorem inRange_iff_valid : c.InRange ↔ c.Valid := by
  have hbound : c.utilizationBound ≠ 0 ↔ 1 ≤ c.utilizationBound.toNat := by
    rw [Nat.one_le_iff_ne_zero, Ne, Ne, ← UInt64.toNat_inj]
    rfl
  have hcapacity : c.wakeCapacity ≠ 0 ↔ c.wakeCapacity.toNat ≠ 0 := by
    rw [Ne, Ne, ← UInt64.toNat_inj]
    rfl
  have hclass : c.rtClass ≠ .normal ↔ c.rtClass = .fifo ∨ c.rtClass = .roundRobin := by
    cases c.rtClass <;> simp
  have htimeout : c.lockTimeout.isZero = false ↔ 0 < c.lockTimeout.nanos := by
    simp [Duration.isZero, Nat.pos_iff_ne_zero]
  constructor
  · intro h
    exact ⟨⟨hbound.2 h.bound.1, UInt64.le_iff_toNat_le.2 h.bound.2⟩, hclass.2 h.realTime,
      ⟨Int32.le_iff_toInt_le.2 h.level.1, Int32.le_iff_toInt_le.2 h.level.2⟩,
      ⟨htimeout.2 h.timeout.1, h.timeout.2⟩, h.offset, hcapacity.2 h.capacity⟩
  · intro h
    exact ⟨⟨hbound.1 h.bound.1, UInt64.le_iff_toNat_le.1 h.bound.2⟩, hclass.1 h.realTime,
      ⟨Int32.le_iff_toInt_le.1 h.level.1, Int32.le_iff_toInt_le.1 h.level.2⟩,
      ⟨htimeout.1 h.timeout.1, h.timeout.2⟩, h.offset, hcapacity.1 h.capacity⟩

/-- A configuration out of range is refused for one of its values. -/
theorem check_of_not_inRange (h : ¬c.InRange) : ∃ fault : Fault, c.check = .error fault.error := by
  cases hfault : c.fault? with
  | none =>
      refine absurd (inRange_iff_valid.2 (check_eq_ok_iff.1 ?_)) h
      rw [check, hfault]
  | some fault =>
      refine ⟨fault, ?_⟩
      rw [check, hfault]

/-! ### Files -/

/-- The bytes of a text are read as the text. -/
theorem load_text (text : String) : load (some text.toUTF8) = ofText text := by
  have hvalid : text.toUTF8.IsValidUTF8 := text.isValidUTF8
  have hread : String.fromUTF8? text.toUTF8 = some text := by
    rw [String.fromUTF8?, dif_pos hvalid]
    rfl
  rw [load, Option.bind_some, hread]

/-- A file is loaded as what it gives, if that passes the check. -/
theorem load_eq {text : String} (hnodup : chosen.Nodup) (h : c.Gives chosen text.toList) :
    load (some text.toUTF8) = (c.overlay chosen).check.mapError .scheduler := by
  simp only [load_text, ofText, decode_given hnodup h]
  cases (c.overlay chosen).check with
  | error e => rfl
  | ok valid => rfl

theorem load_of_inRange {text : String} (hnodup : chosen.Nodup) (h : c.Gives chosen text.toList)
    (hrange : (c.overlay chosen).InRange) : load (some text.toUTF8) = .ok (c.overlay chosen) := by
  rw [load_eq hnodup h, check_eq_ok_iff.2 (inRange_iff_valid.1 hrange), Except.mapError]

theorem load_of_not_inRange {text : String} (hnodup : chosen.Nodup) (h : c.Gives chosen text.toList)
    (hrange : ¬(c.overlay chosen).InRange) :
    ∃ fault : Fault, load (some text.toUTF8) = .error (.scheduler fault.error) := by
  obtain ⟨fault, hcheck⟩ := check_of_not_inRange hrange
  exact ⟨fault, by rw [load_eq hnodup h, hcheck, Except.mapError]⟩

/-- **What is written for a configuration in range** is loaded back. -/
theorem load_json (hrange : c.InRange) : load (some c.json.text.toUTF8) = .ok c := by
  have hgives : c.Gives Field.all c.json.text.toList := by
    rw [Value.text, String.toList_ofList]
    exact c.gives_json
  have hload := load_of_inRange (by decide) hgives (by rwa [overlay_all])
  rwa [overlay_all] at hload

/-- **What loading a file gives**: the values that the file says and the default ones elsewhere, if
every value is in range, and a fault of the configuration if not.  In particular a configuration in
range is loaded back from what is written for it. -/
theorem load_given :
    (∀ (c : Config) (chosen : List Field) (text : String), chosen.Nodup →
      c.Gives chosen text.toList →
        (load (some text.toUTF8) = .ok (c.overlay chosen) ↔ (c.overlay chosen).InRange) ∧
        (¬(c.overlay chosen).InRange → ∃ fault : Fault,
          load (some text.toUTF8) = .error (.scheduler (.invalidConfig fault.reason)))) ∧
      ∀ c : Config, c.InRange → load (some c.json.text.toUTF8) = .ok c := by
  refine ⟨?_, fun c hrange => load_json hrange⟩
  intro c chosen text hnodup h
  refine ⟨⟨fun hload => ?_, load_of_inRange hnodup h⟩, load_of_not_inRange hnodup h⟩
  by_contra hrange
  obtain ⟨fault, hfault⟩ := load_of_not_inRange hnodup h hrange
  rw [hload] at hfault
  cases hfault

/-- Two fields out of order, with another member between them. -/
theorem load_given_sparse :
    let c := { default with rtLevel := 50, wakeCapacity := 8 }
    let text := (Value.object [("wake_capacity", .nat 8), ("note", .array [.nothing, .number (-1)]),
      ("rt_priority", .number 50)]).text
    c.Gives [.wakeCapacity, .rtLevel] text.toList ∧ load (some text.toUTF8) = .ok c := by
  intro c text
  have htells : List.Forall₂ (Tells c) [("wake_capacity", .nat 8),
      ("note", .array [.nothing, .number (-1)]), ("rt_priority", .number 50)]
      [some .wakeCapacity, none, some .rtLevel] := by
    refine .cons (.field .wakeCapacity) (.cons (.other fun f => ?_) (.cons (.field .rtLevel) .nil))
    cases f <;> decide
  have htext : text.toList = (Value.object [("wake_capacity", .nat 8),
      ("note", .array [.nothing, .number (-1)]), ("rt_priority", .number 50)]).chars :=
    String.toList_ofList
  have hgives : c.Gives [.wakeCapacity, .rtLevel] text.toList := by
    rw [htext]
    exact gives_written htells
  have hrange : (c.overlay [.wakeCapacity, .rtLevel]).InRange := by
    rw [inRange_iff_valid, ← check_eq_ok_iff]
    decide
  exact ⟨hgives, (load_given.1 c _ text (by decide) hgives).1.2 hrange⟩

end Config

end RateMonotonic
