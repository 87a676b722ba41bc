/-
**Commands that are written and read back.**

The line of a command has the number of its task and, for a registration, the whole milliseconds of
its two times.  A number is read back from its digits, so what a line loses is what the digits do
not say: the part of a time below a millisecond.  A time of `2 ^ 64` milliseconds or more is written
in full, but is too great for the reader.

Main definitions:
* `Duration.cut` — a time without its part below a millisecond;
* `Duration.Readable` — a time that is read back as it is.

Main results:
* `Command.numberField_digits` — written numbers are read back exactly below the limit;
* `Command.parse_register` — what a registration's line is read as, for all times;
* `Command.parse_text` — **a command is read back exactly if its line says all of it**;
* `Command.parse_text_justBeyond` — the limit is not that of the readable times.
-/

import RateMonotonic.Proofs.CommandGrammar

set_option relaxedAutoImplicit false
set_option autoImplicit false

namespace RateMonotonic

/-! ### Times in whole milliseconds -/

namespace Duration

/-- A time without its part below a millisecond. -/
def cut (d : Duration) : Duration :=
  ⟨d.millis * 10 ^ 6, by
    have := d.nanos_lt
    unfold millis
    omega⟩

/-- A time that is read back as it is: whole milliseconds, and not more than 64 bits of them. -/
def Readable (d : Duration) : Prop := d.nanos % 10 ^ 6 = 0 ∧ d.nanos ≤ (2 ^ 64 - 1) * 10 ^ 6

variable {d : Duration}

theorem cut_eq_iff : d.cut = d ↔ d.nanos % 10 ^ 6 = 0 := by
  rw [Duration.ext_iff]
  simp only [cut, millis]
  omega

theorem readable_iff : d.Readable ↔ d.millis < 2 ^ 64 ∧ d.cut = d := by
  rw [cut_eq_iff, Readable, millis]
  omega

/-- A number of milliseconds with 64 bits is a readable time. -/
theorem readable_ofMillis (ms : UInt64) : (ofMillis ms).Readable := by
  have := ms.toNat_lt
  simp only [Readable, ofMillis]
  omega

theorem ofMillis_millis (h : d.millis < 2 ^ 64) : ofMillis d.millis.toUInt64 = d.cut := by
  refine Duration.ext ?_
  simp only [ofMillis, cut]
  rw [Nat.toUInt64_eq, UInt64.toNat_ofNat_of_lt' h]

end Duration

/-! ### Written numbers -/

namespace Decimal

variable {cs : List Char} {n m : ℕ}

/-- A numeral has one value. -/
theorem Numeral.unique (hn : Numeral cs n) (hm : Numeral cs m) : n = m := by
  have hreadN := unsigned?_eq_some_iff.2 ⟨hn, show n < n + m + 1 by omega⟩
  have hreadM := unsigned?_eq_some_iff.2 ⟨hm, show m < n + m + 1 by omega⟩
  exact Option.some.inj (hreadN.symm.trans hreadM)

theorem unsigned?_digits (limit n : ℕ) :
    unsigned? limit (digits n) = if n < limit then some n else none := by
  split
  · next h => exact unsigned?_eq_some_iff.2 ⟨numeral_digits n, h⟩
  · next h =>
      refine Option.eq_none_iff_forall_ne_some.2 fun m hm => h ?_
      obtain ⟨hnumeral, hlt⟩ := unsigned?_eq_some_iff.1 hm
      rwa [(numeral_digits n).unique hnumeral]

end Decimal

namespace Command

open Decimal (digits)

theorem numberField_digits (name : FieldName) (limit n : ℕ) :
    numberField name limit (digits n) =
      if n < limit then .ok n else .error (.invalidNumber name (Decimal.text n)) := by
  rw [numberField, Decimal.unsigned?_digits]
  by_cases h : n < limit
  · rw [if_pos h, if_pos h]
  · rw [if_neg h, if_neg h]
    rfl

theorem idField_digits (id : TaskId) : idField (digits id.number.toNat) = .ok id := by
  rw [idField, numberField_digits, if_pos id.number.toNat_lt]
  simp [Functor.map, Except.map]

theorem timeField_digits (name : FieldName) (d : Duration) :
    timeField name (digits d.millis) =
      if d.millis < 2 ^ 64 then .ok d.cut
      else .error (.invalidNumber name (Decimal.text d.millis)) := by
  rw [timeField, numberField_digits]
  by_cases h : d.millis < 2 ^ 64
  · rw [if_pos h, if_pos h, ← Duration.ofMillis_millis h]
    rfl
  · rw [if_neg h, if_neg h]
    rfl

/-! ### Written lines -/

/-- The line of a request, as it is written: a comma behind the letter, and a blank in front of each
number. -/
def written (kind : Kind) (numbers : List ℕ) : List Char :=
  kind.letter :: ',' :: ([','].intercalate (numbers.map fun n => ' ' :: digits n) ++ ['.'])

theorem trim_blank_digits (n : ℕ) : Blank.trim (' ' :: digits n) = digits n := by
  have hblank : Blank.Blanks [' '] := by
    intro c hc
    rw [List.mem_singleton.1 hc]
    decide
  exact Blank.trim_append hblank fun c hc => ((Decimal.numeral_digits n).not_mem hc).1

theorem comma_notMem_blank_digits (n : ℕ) : ',' ∉ ' ' :: digits n :=
  Field.not_mem (field_iff.2 ((trim_blank_digits n).symm ▸ Decimal.numeral_digits n))

theorem fieldsOf_written {numbers : List ℕ} (h : numbers ≠ []) :
    fieldsOf ([','].intercalate (numbers.map fun n => ' ' :: digits n)) = numbers.map digits := by
  have hcomma : ∀ f ∈ numbers.map (fun n => ' ' :: digits n), ',' ∉ f := by
    intro f hf
    obtain ⟨n, -, rfl⟩ := List.mem_map.1 hf
    exact comma_notMem_blank_digits n
  rw [fieldsOf_intercalate hcomma (by simpa using h), List.map_map]
  exact List.map_congr_left fun n _ => trim_blank_digits n

/-- A written line is read number by number. -/
theorem parse_written (kind : Kind) {numbers : List ℕ} (h : numbers.length = kind.fieldCount) :
    parse (written kind numbers) = ofNumbers kind (numbers.map digits) := by
  have hne : numbers ≠ [] := by
    rintro rfl
    cases kind <;> cases h
  have hletter : Blank.isBlank kind.letter = false := by cases kind <;> decide
  have htrim : Blank.trim (written kind numbers) = written kind numbers := by
    rw [Blank.trim, written, Blank.trimLeft_cons hletter, ← List.cons_append, ← List.cons_append]
    exact Blank.trimRight_concat (by decide) _
  rw [parse, htrim, written]
  change ofLetter kind.letter _ = _
  rw [dropComma_cons, ofLetter_row, fieldsOf_written hne]
  refine ofFields_of_filled (by simpa using h) fun f hf => ?_
  obtain ⟨n, -, rfl⟩ := List.mem_map.1 hf
  exact Decimal.digits_ne_nil n

/-! ### Lines of commands -/

theorem parse_register (id : TaskId) (period budget : Duration) :
    parse (Command.register id period budget).chars =
      if period.millis < 2 ^ 64 then
        if budget.millis < 2 ^ 64 then .ok (.register id period.cut budget.cut)
        else .error (.invalidNumber .budget (Decimal.text budget.millis))
      else .error (.invalidNumber .period (Decimal.text period.millis)) := by
  have hchars : (Command.register id period budget).chars =
      written .register [id.number.toNat, period.millis, budget.millis] := by
    simp [chars, written, Kind.letter, List.intercalate, List.intersperse]
  rw [hchars, parse_written .register rfl]
  simp only [ofNumbers, List.map_cons, List.map_nil, idField_digits, timeField_digits]
  split
  · split
    · rfl
    · rfl
  · rfl

theorem parse_yield (id : TaskId) : parse (Command.yield id).chars = .ok (.yield id) := by
  have hchars : (Command.yield id).chars = written .yield [id.number.toNat] := by
    simp [chars, written, Kind.letter, List.intercalate]
  rw [hchars, parse_written .yield rfl]
  simp only [ofNumbers, List.map_cons, List.map_nil, idField_digits]
  rfl

theorem parse_deregister (id : TaskId) :
    parse (Command.deregister id).chars = .ok (.deregister id) := by
  have hchars : (Command.deregister id).chars = written .deregister [id.number.toNat] := by
    simp [chars, written, Kind.letter, List.intercalate]
  rw [hchars, parse_written .deregister rfl]
  simp only [ofNumbers, List.map_cons, List.map_nil, idField_digits]
  rfl

theorem parse_status : parse Command.status.chars = .ok .status := rfl

/-- A command that its line says all of: times are the only thing a line may not say. -/
def Readable : Command → Prop
  | .register _ period budget => period.Readable ∧ budget.Readable
  | .yield _ => True
  | .deregister _ => True
  | .status => True

/-- **A command is read back exactly if its line says all of it.** -/
theorem parse_chars_eq_ok_iff {c : Command} : parse c.chars = .ok c ↔ c.Readable := by
  cases c with
  | register id period budget =>
      rw [parse_register, Readable, Duration.readable_iff, Duration.readable_iff]
      by_cases hperiod : period.millis < 2 ^ 64
      · by_cases hbudget : budget.millis < 2 ^ 64
        · simp [hperiod, hbudget]
        · simp [hperiod, hbudget]
      · simp [hperiod]
  | yield id => simp [parse_yield, Readable]
  | deregister id => simp [parse_deregister, Readable]
  | status => simp [parse_status, Readable]

/-- The times of a sentence have 64 bits of milliseconds. -/
theorem Sentence.readable {row : List Char} {c : Command} (h : Sentence row c) : c.Readable := by
  cases h with
  | status => trivial
  | request _ _ written =>
      cases written with
      | register => exact ⟨Duration.readable_ofMillis _, Duration.readable_ofMillis _⟩
      | yield => trivial
      | deregister => trivial

/-- **What the text of a command is read as.**  It is read back as the command exactly if that is no
registration, or one of two times in whole milliseconds, `2 ^ 64 - 1` of them at most.  If a time has
`2 ^ 64` milliseconds or more, the first field with so many is at fault.  In every other registration
the two times are read without their parts below a millisecond.  What a line is read as is always
read back. -/
theorem parse_text (c : Command) :
    (parse c.text.toList = .ok c ↔ c.Readable) ∧
      (∀ id period budget, c = .register id period budget →
        (2 ^ 64 ≤ period.millis → parse c.text.toList =
          .error (.invalidNumber .period (Decimal.text period.millis))) ∧
        (period.millis < 2 ^ 64 → 2 ^ 64 ≤ budget.millis → parse c.text.toList =
          .error (.invalidNumber .budget (Decimal.text budget.millis))) ∧
        (period.millis < 2 ^ 64 → budget.millis < 2 ^ 64 → parse c.text.toList =
          .ok (.register id period.cut budget.cut))) ∧
      ∀ line, parse line = .ok c → parse c.text.toList = .ok c := by
  rw [text, String.toList_ofList]
  refine ⟨parse_chars_eq_ok_iff, ?_, fun line hline => ?_⟩
  · rintro id period budget rfl
    rw [parse_register]
    refine ⟨fun hperiod => ?_, fun hperiod hbudget => ?_, fun hperiod hbudget => ?_⟩
    · rw [if_neg (Nat.not_lt.2 hperiod)]
    · rw [if_pos hperiod, if_neg (Nat.not_lt.2 hbudget)]
    · rw [if_pos hperiod, if_pos hbudget]
  · exact parse_chars_eq_ok_iff.2 (parse_eq_ok_iff.1 hline).readable

/-- **A time can be greater than the greatest readable one and still be read**: one nanosecond beyond
`2 ^ 64 - 1` milliseconds is not written, so no field is at fault. -/
theorem parse_text_justBeyond :
    let limit : Duration := ⟨(2 ^ 64 - 1) * 10 ^ 6, by decide⟩
    let period : Duration := ⟨(2 ^ 64 - 1) * 10 ^ 6 + 1, by decide⟩
    let budget : Duration := Duration.ofMillis 1
    limit < period ∧
      parse (Command.register ⟨1⟩ period budget).text.toList = .ok (.register ⟨1⟩ limit budget) ∧
      ¬∃ name field, parse (Command.register ⟨1⟩ period budget).text.toList =
        .error (.invalidNumber name field) := by
  intro limit period budget
  have hperiod : period.millis < 2 ^ 64 := by decide
  have hbudget : budget.millis < 2 ^ 64 := by decide
  have hcut : period.cut = limit := Duration.ext (by decide)
  have hwhole : budget.cut = budget := Duration.cut_eq_iff.2 (by decide)
  have hread : parse (Command.register ⟨1⟩ period budget).text.toList =
      .ok (.register ⟨1⟩ limit budget) := by
    rw [text, String.toList_ofList, parse_register, if_pos hperiod, if_pos hbudget, hcut, hwhole]
  refine ⟨by decide, hread, ?_⟩
  rintro ⟨name, field, hfault⟩
  rw [hread] at hfault
  cases hfault

end Command

end RateMonotonic
