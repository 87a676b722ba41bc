/-
**The grammar of commands.**

A line is a command when, without its blank ends, it is `S`, blanks, at most one comma, blanks and
at most one point; or the letter of another command, blanks, at most one comma, as many fields as
the command takes with commas between them, and a point.  A field is a number with blanks around it:
at most one plus sign and one or more digits, and the number has to fit.  The grammar is said here
without the reader, which cuts and splits its way along the line; that the two agree is the theorem.

Main definitions:
* `Blank.Blanks` — a text of blanks;
* `Decimal.Numeral` — a number in decimal;
* `Command.Field`, `Command.Fields`, `Command.Sentence` — the fields of a command, and its line.

Main results:
* `Blank.exists_trim`, `Blank.trim_pad` — what a cut leaves out, and what it leaves;
* `Decimal.unsigned?_eq_some_iff` — a number is read exactly from its numerals;
* `Command.ofFields_eq_ok_iff` — fields are read exactly as they are written;
* `Command.parse_eq_ok_iff` — **a line is read exactly when it is in the grammar**;
* `Command.parse_exact` — and every other line has its fault.
-/

import Mathlib.Data.List.DropRight
import Mathlib.Data.Nat.Digits.Defs
import RateMonotonic.Command

set_option relaxedAutoImplicit false
set_option autoImplicit false

namespace RateMonotonic

/-! ### Blanks -/

namespace Blank

variable {cs gap : List Char} {c : Char}

/-- A text of blanks, or none. -/
def Blanks (cs : List Char) : Prop := ∀ c ∈ cs, isBlank c = true

theorem trimLeft_append (h : Blanks gap) (cs : List Char) : trimLeft (gap ++ cs) = trimLeft cs :=
  List.dropWhile_append_of_pos h

theorem trimRight_append (h : Blanks gap) (cs : List Char) :
    trimRight (cs ++ gap) = trimRight cs := by
  have hreverse : ∀ c ∈ gap.reverse, isBlank c = true := fun c hc => h c (List.mem_reverse.1 hc)
  simp only [trimRight, List.reverse_append, List.dropWhile_append_of_pos hreverse]

theorem trimLeft_cons (hc : isBlank c = false) (cs : List Char) : trimLeft (c :: cs) = c :: cs :=
  List.dropWhile_cons_of_neg (by simp [hc])

/-- What is not blank at the start of a text keeps what follows it. -/
theorem trimLeft_append_of_ne_nil (h : trimLeft cs ≠ []) (ds : List Char) :
    trimLeft (cs ++ ds) = trimLeft cs ++ ds := by
  rw [trimLeft, List.dropWhile_append, if_neg]
  · rfl
  · simpa [trimLeft] using h

theorem trimRight_concat (hc : isBlank c = false) (cs : List Char) :
    trimRight (cs ++ [c]) = cs ++ [c] :=
  List.rdropWhile_concat_neg isBlank cs c (by simp [hc])

theorem exists_trimLeft (cs : List Char) : ∃ gap, Blanks gap ∧ cs = gap ++ trimLeft cs :=
  ⟨cs.takeWhile isBlank, fun _ hc => List.mem_takeWhile_imp hc,
    List.takeWhile_append_dropWhile.symm⟩

theorem exists_trimRight (cs : List Char) : ∃ gap, Blanks gap ∧ cs = trimRight cs ++ gap :=
  ⟨cs.rtakeWhile isBlank, fun _ hc => List.mem_rtakeWhile_imp hc,
    List.rdropWhile_append_rtakeWhile.symm⟩

/-- **A cut leaves out blanks only.** -/
theorem exists_trim (cs : List Char) :
    ∃ before after, Blanks before ∧ Blanks after ∧ cs = before ++ trim cs ++ after := by
  obtain ⟨before, hbefore, hleft⟩ := exists_trimLeft cs
  obtain ⟨after, hafter, hright⟩ := exists_trimRight (trimLeft cs)
  refine ⟨before, after, hbefore, hafter, ?_⟩
  rw [List.append_assoc, trim, ← hright]
  exact hleft

/-- **A cut leaves what is not blank.** -/
theorem trim_pad {before after : List Char} (hbefore : Blanks before) (hafter : Blanks after)
    (h : ∀ c ∈ cs, isBlank c = false) : trim (before ++ cs ++ after) = cs := by
  rw [trim, List.append_assoc, trimLeft_append hbefore]
  cases cs with
  | nil =>
      rw [List.nil_append, trimLeft, List.dropWhile_eq_nil_iff.2 hafter]
      rfl
  | cons c cs =>
      rw [List.cons_append, trimLeft_cons (h c List.mem_cons_self), ← List.cons_append,
        trimRight_append hafter]
      exact List.rdropWhile_eq_self_iff.2 fun hne => by simp [h _ (List.getLast_mem hne)]

theorem blanks_nil : Blanks [] := fun _ hc => nomatch hc

/-- Blanks in front of what is not blank are cut. -/
theorem trim_append {before : List Char} (hbefore : Blanks before)
    (h : ∀ c ∈ cs, isBlank c = false) : trim (before ++ cs) = cs := by
  have hpad := trim_pad hbefore blanks_nil h
  rwa [List.append_nil] at hpad

/-- What ends a text without a blank end has none either. -/
theorem trimRight_of_suffix {ds : List Char} (hsuffix : ds <:+ cs) (h : trimRight cs = cs) :
    trimRight ds = ds := by
  obtain ⟨front, rfl⟩ := hsuffix
  refine List.rdropWhile_eq_self_iff.2 fun hne => ?_
  have hlast := List.rdropWhile_eq_self_iff.1 h (List.append_ne_nil_of_right_ne_nil front hne)
  rwa [List.getLast_append_of_ne_nil _ hne] at hlast

/-- Only blanks in front are cut from a text without a blank end. -/
theorem exists_trim_of_trimRight (h : trimRight cs = cs) :
    ∃ gap, Blanks gap ∧ cs = gap ++ trim cs := by
  obtain ⟨gap, hgap, heq⟩ := exists_trimLeft cs
  have hleft : trim cs = trimLeft cs := trimRight_of_suffix ⟨gap, heq.symm⟩ h
  exact ⟨gap, hgap, hleft ▸ heq⟩

end Blank

/-! ### Numerals -/

/-- A text of one character at most, and of this one. -/
def AtMostOne (c : Char) (cs : List Char) : Prop := cs = [] ∨ cs = [c]

namespace Decimal

variable {cs : List Char} {n limit : ℕ}

/-- **A number in decimal**: at most one plus sign, and one or more digits. -/
def Numeral (cs : List Char) (n : ℕ) : Prop :=
  ∃ sign row, cs = sign ++ row ∧ AtMostOne '+' sign ∧ row ≠ [] ∧ (∀ c ∈ row, c.isDigit = true) ∧
    Nat.ofDigits 10 (row.reverse.map fun c => c.toNat - '0'.toNat) = n

theorem isDigit_iff {c : Char} : isDigit c = true ↔ c.isDigit = true := by
  rw [Char.isDigit_iff_toNat]
  simp [isDigit]

/-- The value of a row of digits is the number that has these digits. -/
theorem value_eq_ofDigits (row : List Char) :
    value row = Nat.ofDigits 10 (row.reverse.map fun c => c.toNat - '0'.toNat) := by
  induction row using List.reverseRecOn with
  | nil => rfl
  | append_singleton row c ih =>
      rw [List.reverse_append, List.reverse_singleton, List.singleton_append, List.map_cons,
        Nat.ofDigits_cons, ← ih]
      simp only [value, List.foldl_append, List.foldl_cons, List.foldl_nil]
      exact Nat.add_comm _ _

theorem number?_eq_some_iff {row : List Char} :
    number? row = some n ↔ row ≠ [] ∧ (∀ c ∈ row, c.isDigit = true) ∧ value row = n := by
  simp [number?, isDigit_iff, and_assoc]

/-- **A number is read exactly from its numerals**, if it is below the limit. -/
theorem unsigned?_eq_some_iff : unsigned? limit cs = some n ↔ Numeral cs n ∧ n < limit := by
  simp only [unsigned?, Option.filter_eq_some_iff, number?_eq_some_iff, decide_eq_true_eq,
    value_eq_ofDigits]
  refine and_congr_left fun _ => ⟨fun h => ?_, ?_⟩
  · split at h
    · next row => exact ⟨['+'], row, rfl, Or.inr rfl, h⟩
    · exact ⟨[], cs, rfl, Or.inl rfl, h⟩
  · rintro ⟨sign, row, rfl, rfl | rfl, hrow⟩
    · split
      · next rest heq =>
          -- A plus sign is no digit.
          have hplus := hrow.2.1 '+' (by rw [← List.nil_append row, heq]; exact List.mem_cons_self)
          exact absurd hplus (by decide)
      · exact hrow
    · exact hrow

theorem Numeral.ne_nil (h : Numeral cs n) : cs ≠ [] := by
  obtain ⟨sign, row, rfl, -, hrow, -⟩ := h
  exact List.append_ne_nil_of_right_ne_nil sign hrow

/-- There is no blank in a numeral, and no comma. -/
theorem Numeral.not_mem (h : Numeral cs n) {c : Char} (hc : c ∈ cs) :
    Blank.isBlank c = false ∧ c ≠ ',' := by
  obtain ⟨sign, row, rfl, hsign, -, hdigits, -⟩ := h
  rcases List.mem_append.1 hc with hc | hc
  · rcases hsign with rfl | rfl
    · cases hc
    · rw [List.mem_singleton.1 hc]
      decide
  · have hdigit := isDigit_iff.2 (hdigits c hc)
    simp only [isDigit, Bool.and_eq_true, decide_eq_true_eq] at hdigit
    refine ⟨?_, ?_⟩
    · simp only [Blank.isBlank, Blank.ranges, List.any_cons, List.any_nil, Bool.or_false,
        Bool.or_eq_false_iff, Bool.and_eq_false_iff, decide_eq_false_iff_not]
      omega
    · rintro rfl
      revert hdigit
      decide

/-- A written number is a numeral. -/
theorem numeral_digits (n : ℕ) : Numeral (digits n) n := by
  have hread := number?_eq_some_iff.1 (number?_digits n)
  rw [value_eq_ofDigits] at hread
  exact ⟨[], digits n, rfl, Or.inl rfl, hread⟩

end Decimal

/-! ### Fields -/

section

variable {ε α β : Type}

theorem bind_eq_ok_iff {x : Except ε α} {f : α → Except ε β} {b : β} :
    x >>= f = .ok b ↔ ∃ a, x = .ok a ∧ f a = .ok b := by
  cases x <;> simp [bind, Except.bind]

theorem bind_eq_error_iff {x : Except ε α} {f : α → Except ε β} {e : ε} :
    x >>= f = .error e ↔ x = .error e ∨ ∃ a, x = .ok a ∧ f a = .error e := by
  cases x <;> simp [bind, Except.bind]

theorem map_eq_ok_iff {x : Except ε α} {f : α → β} {b : β} :
    f <$> x = .ok b ↔ ∃ a, x = .ok a ∧ f a = b := by
  cases x <;> simp [Functor.map, Except.map]

theorem map_eq_error_iff {x : Except ε α} {f : α → β} {e : ε} :
    f <$> x = .error e ↔ x = .error e := by
  cases x <;> simp [Functor.map, Except.map]

end

namespace Command

open Blank (Blanks)

variable {cs : List Char} {kind : Kind} {fields : List (List Char)} {c : Command}

/-- **A field**: a number with blanks around it. -/
def Field (cs : List Char) (n : ℕ) : Prop :=
  ∃ before numeral after, cs = before ++ numeral ++ after ∧ Blanks before ∧ Blanks after ∧
    Decimal.Numeral numeral n

/-- **The fields of a command.**  The number of a task has 32 bits, a number of milliseconds 64. -/
inductive Fields : Kind → List (List Char) → Command → Prop
  | register {id period budget : List Char} {number : UInt32} {p b : UInt64}
      (task : Field id number.toNat) (time : Field period p.toNat) (cost : Field budget b.toNat) :
      Fields .register [id, period, budget]
        (.register ⟨number⟩ (Duration.ofMillis p) (Duration.ofMillis b))
  | yield {id : List Char} {number : UInt32} (task : Field id number.toNat) :
      Fields .yield [id] (.yield ⟨number⟩)
  | deregister {id : List Char} {number : UInt32} (task : Field id number.toNat) :
      Fields .deregister [id] (.deregister ⟨number⟩)

theorem Field.trim_eq {n : ℕ} (h : Field cs n) : Decimal.Numeral (Blank.trim cs) n := by
  obtain ⟨before, numeral, after, rfl, hbefore, hafter, hnumeral⟩ := h
  rwa [Blank.trim_pad hbefore hafter fun c hc => (hnumeral.not_mem hc).1]

theorem field_iff {n : ℕ} : Field cs n ↔ Decimal.Numeral (Blank.trim cs) n := by
  refine ⟨Field.trim_eq, fun h => ?_⟩
  obtain ⟨before, after, hbefore, hafter, heq⟩ := Blank.exists_trim cs
  exact ⟨before, Blank.trim cs, after, heq, hbefore, hafter, h⟩

/-- There is no comma in a field. -/
theorem Field.not_mem {n : ℕ} (h : Field cs n) : ',' ∉ cs := by
  obtain ⟨before, numeral, after, rfl, hbefore, hafter, hnumeral⟩ := h
  have hblank : ∀ gap : List Char, Blanks gap → ',' ∉ gap := fun gap hgap hm => by
    have := hgap ',' hm
    revert this
    decide
  simp only [List.mem_append, not_or]
  exact ⟨⟨hblank before hbefore, fun hm => (hnumeral.not_mem hm).2 rfl⟩, hblank after hafter⟩

theorem numberField_eq_ok_iff {name : FieldName} {limit n : ℕ} :
    numberField name limit (Blank.trim cs) = .ok n ↔ Field cs n ∧ n < limit := by
  rw [field_iff, ← Decimal.unsigned?_eq_some_iff, numberField]
  cases Decimal.unsigned? limit (Blank.trim cs) <;> simp

theorem idField_eq_ok_iff {id : TaskId} :
    idField (Blank.trim cs) = .ok id ↔ Field cs id.number.toNat := by
  simp only [idField, map_eq_ok_iff, numberField_eq_ok_iff]
  constructor
  · rintro ⟨n, ⟨hfield, hlt⟩, rfl⟩
    rwa [UInt32.toNat_ofNat_of_lt' hlt]
  · exact fun hfield => ⟨id.number.toNat, ⟨hfield, id.number.toNat_lt⟩, by simp⟩

theorem timeField_eq_ok_iff {name : FieldName} {d : Duration} :
    timeField name (Blank.trim cs) = .ok d ↔
      ∃ ms : UInt64, Field cs ms.toNat ∧ d = Duration.ofMillis ms := by
  simp only [timeField, map_eq_ok_iff, numberField_eq_ok_iff]
  constructor
  · rintro ⟨n, ⟨hfield, hlt⟩, rfl⟩
    refine ⟨n.toUInt64, ?_, rfl⟩
    rwa [UInt64.toNat_ofNat_of_lt' hlt]
  · rintro ⟨ms, hfield, rfl⟩
    exact ⟨ms.toNat, ⟨hfield, ms.toNat_lt⟩, by simp⟩

theorem Fields.length_eq (h : Fields kind fields c) : fields.length = kind.fieldCount := by
  cases h <;> rfl

/-- Every field of a command is a field. -/
theorem Fields.exists_field (h : Fields kind fields c) : ∀ f ∈ fields, ∃ n, Field f n := by
  intro f hf
  cases h with
  | register task time cost =>
      simp only [List.mem_cons, List.not_mem_nil, or_false] at hf
      rcases hf with rfl | rfl | rfl
      · exact ⟨_, task⟩
      · exact ⟨_, time⟩
      · exact ⟨_, cost⟩
  | yield task => exact ⟨_, List.mem_singleton.1 hf ▸ task⟩
  | deregister task => exact ⟨_, List.mem_singleton.1 hf ▸ task⟩

/-- As many fields as a command takes are read exactly if they are those of a command. -/
theorem ofNumbers_eq_ok_iff (hlength : fields.length = kind.fieldCount) :
    ofNumbers kind (fields.map Blank.trim) = .ok c ↔ Fields kind fields c := by
  cases kind with
  | register =>
      obtain ⟨id, period, budget, rfl⟩ := List.length_eq_three.1 hlength
      simp only [ofNumbers, List.map_cons, List.map_nil, bind_eq_ok_iff, idField_eq_ok_iff,
        timeField_eq_ok_iff, pure, Except.pure, Except.ok.injEq]
      constructor
      · rintro ⟨⟨number⟩, task, p, ⟨ms, time, rfl⟩, b, ⟨ns, cost, rfl⟩, rfl⟩
        exact .register task time cost
      · intro h
        cases h with
        | register task time cost => exact ⟨_, task, _, ⟨_, time, rfl⟩, _, ⟨_, cost, rfl⟩, rfl⟩
  | yield =>
      obtain ⟨id, rfl⟩ := List.length_eq_one_iff.1 hlength
      simp only [ofNumbers, List.map_cons, List.map_nil, bind_eq_ok_iff, idField_eq_ok_iff, pure,
        Except.pure, Except.ok.injEq]
      constructor
      · rintro ⟨⟨number⟩, task, rfl⟩
        exact .yield task
      · intro h
        cases h with
        | yield task => exact ⟨_, task, rfl⟩
  | deregister =>
      obtain ⟨id, rfl⟩ := List.length_eq_one_iff.1 hlength
      simp only [ofNumbers, List.map_cons, List.map_nil, bind_eq_ok_iff, idField_eq_ok_iff, pure,
        Except.pure, Except.ok.injEq]
      constructor
      · rintro ⟨⟨number⟩, task, rfl⟩
        exact .deregister task
      · intro h
        cases h with
        | deregister task => exact ⟨_, task, rfl⟩

theorem checkFilled_eq_ok (h : ∀ f ∈ fields, f ≠ []) : checkFilled kind fields = .ok () := by
  have hnone : fields.findIdx? (·.isEmpty) = none := by
    rw [List.findIdx?_eq_none_iff]
    exact fun f hf => List.isEmpty_eq_false_iff.2 (h f hf)
  rw [checkFilled, hnone]

/-- As many filled fields as a command takes are read as numbers. -/
theorem ofFields_of_filled (hlength : fields.length = kind.fieldCount)
    (hfilled : ∀ f ∈ fields, f ≠ []) : ofFields kind fields = ofNumbers kind fields := by
  rw [ofFields, if_neg (not_not.2 hlength), checkFilled_eq_ok hfilled]
  rfl

/-- **Fields are read exactly as they are written.** -/
theorem ofFields_eq_ok_iff :
    ofFields kind (fields.map Blank.trim) = .ok c ↔ Fields kind fields c := by
  constructor
  · intro h
    have hlength : fields.length = kind.fieldCount := by
      by_contra hne
      rw [ofFields_of_length_ne (by simpa using hne)] at h
      cases h
    rw [ofFields, if_neg (not_not.2 (by simpa using hlength))] at h
    obtain ⟨-, -, hnumbers⟩ := bind_eq_ok_iff.1 h
    exact (ofNumbers_eq_ok_iff hlength).1 hnumbers
  · intro h
    have hfilled : ∀ f ∈ fields.map Blank.trim, f ≠ [] := by
      intro f hf
      obtain ⟨g, hg, rfl⟩ := List.mem_map.1 hf
      obtain ⟨n, hn⟩ := h.exists_field g hg
      exact hn.trim_eq.ne_nil
    rw [ofFields_of_filled (by simpa using h.length_eq) hfilled]
    exact (ofNumbers_eq_ok_iff h.length_eq).2 h

/-! ### Rows of fields -/

/-- Blanks in front of a row of fields belong to its first one. -/
theorem fieldsOf_append {gap : List Char} (h : Blanks gap) (row : List Char) :
    fieldsOf (gap ++ row) = fieldsOf row := by
  induction gap with
  | nil => rfl
  | cons b gap ih =>
      have hb : Blank.isBlank b = true := h b List.mem_cons_self
      have hcomma : ¬ (b == ',') = true := by
        rw [beq_iff_eq]
        rintro rfl
        revert hb
        decide
      rw [← ih fun d hd => h d (List.mem_cons_of_mem b hd), List.cons_append, fieldsOf, fieldsOf,
        List.splitOn_cons_eq_if_modifyHead, if_neg hcomma]
      cases (gap ++ row).splitOn ',' with
      | nil => rfl
      | cons first others =>
          have htrim : Blank.trim (b :: first) = Blank.trim first := by
            simp [Blank.trim, Blank.trimLeft, hb]
          simp [htrim]

theorem fieldsOf_trimLeft (row : List Char) : fieldsOf (Blank.trimLeft row) = fieldsOf row := by
  obtain ⟨gap, hgap, heq⟩ := Blank.exists_trimLeft row
  rw [heq, fieldsOf_append hgap, ← heq]

/-- Fields that are joined by commas are found again. -/
theorem fieldsOf_intercalate (hcomma : ∀ f ∈ fields, ',' ∉ f) (hne : fields ≠ []) :
    fieldsOf ([','].intercalate fields) = fields.map Blank.trim := by
  rw [fieldsOf, List.splitOn_intercalate ',' hcomma hne]

theorem beforePoint?_eq_some_iff {body : List Char} :
    beforePoint? cs = some body ↔ cs = body ++ ['.'] := by
  unfold beforePoint?
  constructor
  · intro h
    split at h
    · next hlast =>
        cases h
        exact (List.dropLast_append_getLast? '.' hlast).symm
    · cases h
  · rintro rfl
    simp

theorem ofLetter?_letter (kind : Kind) : Kind.ofLetter? kind.letter = some kind := by
  cases kind <;> rfl

/-- A row of fields with a point at its end is read field by field. -/
theorem ofLetter_row (kind : Kind) (row : List Char) :
    ofLetter kind.letter (row ++ ['.']) = ofFields kind (fieldsOf row) := by
  have hletter : kind.letter ≠ 'S' := by cases kind <;> decide
  have hpoint : beforePoint? (Blank.trimRight (row ++ ['.'])) = some row := by
    rw [Blank.trimRight_concat (by decide), beforePoint?_eq_some_iff]
  rw [ofLetter, if_neg hletter, ofLetter?_letter]
  simp only [hpoint]

/-! ### Sentences -/

/-- **The line of a command**, without its blank ends. -/
inductive Sentence : List Char → Command → Prop
  | status {gap comma gap' point : List Char} (blank : Blanks gap) (once : AtMostOne ',' comma)
      (blank' : Blanks gap') (stop : AtMostOne '.' point) :
      Sentence ('S' :: (gap ++ comma ++ gap' ++ point)) .status
  | request {kind : Kind} {gap comma : List Char} {fields : List (List Char)} {c : Command}
      (blank : Blanks gap) (once : AtMostOne ',' comma) (written : Fields kind fields c) :
      Sentence (kind.letter :: (gap ++ comma ++ [','].intercalate fields ++ ['.'])) c

/-- What is dropped behind the letter are blanks and at most one comma. -/
theorem exists_dropComma (rest : List Char) :
    ∃ gap comma, Blanks gap ∧ AtMostOne ',' comma ∧
      rest = gap ++ comma ++ dropComma (Blank.trimLeft rest) := by
  obtain ⟨gap, hgap, heq⟩ := Blank.exists_trimLeft rest
  cases hleft : Blank.trimLeft rest with
  | nil => exact ⟨gap, [], hgap, Or.inl rfl, by simpa [dropComma, hleft] using heq⟩
  | cons d more =>
      by_cases hd : d = ','
      · refine ⟨gap, [','], hgap, Or.inr rfl, ?_⟩
        rw [heq, hleft, hd]
        simp [dropComma]
      · refine ⟨gap, [], hgap, Or.inl rfl, ?_⟩
        rw [heq, hleft]
        simp [dropComma, hd]

theorem dropComma_cons (body : List Char) : dropComma (Blank.trimLeft (',' :: body)) = body := by
  rw [Blank.trimLeft_cons (by decide)]
  rfl

theorem dropComma_comma {gap : List Char} (h : Blanks gap) (body : List Char) :
    dropComma (Blank.trimLeft (gap ++ [','] ++ body)) = body := by
  rw [List.append_assoc, Blank.trimLeft_append h]
  exact dropComma_cons body

/-- A row of fields starts with the first of them. -/
theorem Fields.exists_front (h : Fields kind fields c) :
    ∃ f n rest, Field f n ∧ [','].intercalate fields = f ++ rest := by
  cases h with
  | register task time cost => exact ⟨_, _, _, task, rfl⟩
  | yield task => exact ⟨_, _, [], task, by simp [List.intercalate]⟩
  | deregister task => exact ⟨_, _, [], task, by simp [List.intercalate]⟩

/-- What is not blank at the start of a row of fields belongs to a numeral, so it is no comma. -/
theorem Fields.exists_head (h : Fields kind fields c) :
    ∃ d more, Blank.trimLeft ([','].intercalate fields) = d :: more ∧ d ≠ ',' := by
  obtain ⟨f, n, rest, ⟨before, numeral, after, rfl, hbefore, -, hnumeral⟩, hrow⟩ := h.exists_front
  obtain ⟨d, digits, rfl⟩ := List.exists_cons_of_ne_nil hnumeral.ne_nil
  obtain ⟨hblank, hcomma⟩ := hnumeral.not_mem List.mem_cons_self
  refine ⟨d, digits ++ after ++ rest, ?_, hcomma⟩
  rw [hrow]
  simp only [List.append_assoc, Blank.trimLeft_append hbefore, List.cons_append,
    Blank.trimLeft_cons hblank]

/-- What is left behind the letter of a request has the fields of the request and its point. -/
theorem Fields.exists_row (h : Fields kind fields c) {gap comma : List Char} (blank : Blanks gap)
    (once : AtMostOne ',' comma) :
    ∃ row, dropComma (Blank.trimLeft (gap ++ comma ++ [','].intercalate fields ++ ['.'])) =
      row ++ ['.'] ∧ fieldsOf row = fields.map Blank.trim := by
  have hfields : fieldsOf ([','].intercalate fields) = fields.map Blank.trim := by
    refine fieldsOf_intercalate (fun f hf => ?_) ?_
    · obtain ⟨n, hn⟩ := h.exists_field f hf
      exact hn.not_mem
    · rintro rfl
      cases h
  rcases once with rfl | rfl
  · -- Without a comma the blanks of the first field go, too.
    obtain ⟨d, more, htrim, hd⟩ := h.exists_head
    have hleft : Blank.trimLeft ([','].intercalate fields ++ ['.']) = d :: more ++ ['.'] := by
      rw [Blank.trimLeft_append_of_ne_nil (by simp [htrim]), htrim]
    refine ⟨d :: more, ?_, by rw [← htrim, fieldsOf_trimLeft, hfields]⟩
    rw [List.append_nil, List.append_assoc, Blank.trimLeft_append blank, hleft]
    exact if_neg hd
  · refine ⟨[','].intercalate fields, ?_, hfields⟩
    rw [List.append_assoc (gap ++ [',']), dropComma_comma blank]

/-- What is left behind the letter of a report is at most a point, with blanks around it. -/
theorem trim_report {gap comma gap' point : List Char} (blank : Blanks gap)
    (once : AtMostOne ',' comma) (blank' : Blanks gap') (stop : AtMostOne '.' point) :
    Blank.trim (dropComma (Blank.trimLeft (gap ++ comma ++ gap' ++ point))) = point := by
  have hpoint : ∀ d ∈ point, Blank.isBlank d = false := by
    intro d hd
    rcases stop with rfl | rfl
    · cases hd
    · rw [List.mem_singleton.1 hd]
      decide
  rcases once with rfl | rfl
  · rw [List.append_nil, List.append_assoc, Blank.trimLeft_append blank,
      Blank.trimLeft_append blank']
    rcases stop with rfl | rfl <;> rfl
  · rw [List.append_assoc (gap ++ [',']), dropComma_comma blank]
    exact Blank.trim_append blank' hpoint

/-- **A sentence is read as its command.** -/
theorem parse_of_sentence {line : List Char} (h : Sentence (Blank.trim line) c) :
    parse line = .ok c := by
  unfold parse
  generalize Blank.trim line = row at h
  cases h with
  | status blank once blank' stop =>
      change ofStatus _ = _
      rw [ofStatus, trim_report blank once blank' stop]
      exact if_pos stop
  | request blank once written =>
      obtain ⟨row, hrow, hfields⟩ := written.exists_row blank once
      change ofLetter _ _ = _
      rw [hrow, ofLetter_row, hfields]
      exact ofFields_eq_ok_iff.2 written

theorem ofStatus_eq_ok (h : ofStatus cs = .ok c) :
    c = .status ∧ AtMostOne '.' (Blank.trim cs) := by
  simp only [ofStatus] at h
  split at h
  · next hbody => exact ⟨(Except.ok.inj h).symm, hbody⟩
  · cases h

/-- What is read behind a letter other than that of a report is a row of fields and a point. -/
theorem ofLetter_eq_ok {letter : Char} (hS : letter ≠ 'S') (htight : Blank.trimRight cs = cs)
    (h : ofLetter letter cs = .ok c) :
    ∃ kind fields, letter = Kind.letter kind ∧ cs = [','].intercalate fields ++ ['.'] ∧
      Fields kind fields c := by
  rw [ofLetter, if_neg hS, htight] at h
  split at h
  · cases h
  next kind hkind =>
    split at h
    · cases h
    next body hbody =>
      exact ⟨kind, body.splitOn ',', (letter_ofLetter? hkind).symm,
        by rw [List.intercalate_splitOn, ← beforePoint?_eq_some_iff, hbody],
        ofFields_eq_ok_iff.1 h⟩

/-- **What is read as a command is a sentence.** -/
theorem sentence_of_parse {line : List Char} (h : parse line = .ok c) :
    Sentence (Blank.trim line) c := by
  unfold parse at h
  have hright : Blank.trimRight (Blank.trim line) = Blank.trim line :=
    Blank.trimRight_trimRight (Blank.trimLeft line)
  generalize Blank.trim line = row at h hright
  cases row with
  | nil => cases h
  | cons letter rest =>
      obtain ⟨gap, comma, blank, once, hrest⟩ := exists_dropComma rest
      replace h : ofLetter letter (dropComma (Blank.trimLeft rest)) = .ok c := h
      generalize dropComma (Blank.trimLeft rest) = body at h hrest
      -- What is behind the letter has no blank end, as the whole row has none.
      have htight : Blank.trimRight body = body :=
        Blank.trimRight_of_suffix ⟨letter :: (gap ++ comma), by rw [hrest]; rfl⟩ hright
      by_cases hS : letter = 'S'
      · rw [ofLetter, if_pos hS] at h
        obtain ⟨rfl, hstop⟩ := ofStatus_eq_ok h
        obtain ⟨gap', blank', hbody⟩ := Blank.exists_trim_of_trimRight htight
        rw [hrest, hbody, ← List.append_assoc, hS]
        exact .status blank once blank' hstop
      · obtain ⟨kind, fields, rfl, rfl, hwritten⟩ := ofLetter_eq_ok hS htight h
        rw [hrest, ← List.append_assoc]
        exact .request blank once hwritten

/-- **A line is read exactly when it is in the grammar.** -/
theorem parse_eq_ok_iff {line : List Char} :
    parse line = .ok c ↔ Sentence (Blank.trim line) c :=
  ⟨sentence_of_parse, parse_of_sentence⟩

/-- The comma behind the letter may be missing, a field may have a plus sign and leading zeros, and
there may be blanks in front of the point. -/
example : parse " R 7, +5, 09 . ".toList =
    .ok (.register ⟨7⟩ (Duration.ofMillis 5) (Duration.ofMillis 9)) := rfl

/-- A second comma behind the letter is one of the commas between the fields. -/
example : parse " R,, 7, 5, 9.".toList = .error (.fieldCount 'R' 3 4) := rfl

/-! ### Faults -/

variable {fault : Fault}

theorem numberField_eq_error {name : FieldName} {limit : ℕ}
    (h : numberField name limit cs = .error fault) :
    fault = .invalidNumber name (String.ofList cs) := by
  unfold numberField at h
  split at h
  · cases h
  · exact (Except.error.inj h).symm

theorem idField_eq_error (h : idField cs = .error fault) :
    fault = .invalidNumber .taskId (String.ofList cs) :=
  numberField_eq_error (map_eq_error_iff.1 h)

theorem timeField_eq_error {name : FieldName} (h : timeField name cs = .error fault) :
    fault = .invalidNumber name (String.ofList cs) :=
  numberField_eq_error (map_eq_error_iff.1 h)

/-- The only fault of as many fields as a command takes is a field that holds no number. -/
theorem ofNumbers_eq_error (hlength : fields.length = kind.fieldCount)
    (h : ofNumbers kind fields = .error fault) :
    ∃ name value, fault = .invalidNumber name value := by
  cases kind with
  | register =>
      obtain ⟨id, period, budget, rfl⟩ := List.length_eq_three.1 hlength
      rcases bind_eq_error_iff.1 h with htask | ⟨_, -, h⟩
      · exact ⟨_, _, idField_eq_error htask⟩
      rcases bind_eq_error_iff.1 h with htime | ⟨_, -, h⟩
      · exact ⟨_, _, timeField_eq_error htime⟩
      rcases bind_eq_error_iff.1 h with hcost | ⟨_, -, h⟩
      · exact ⟨_, _, timeField_eq_error hcost⟩
      · cases h
  | yield | deregister =>
      obtain ⟨id, rfl⟩ := List.length_eq_one_iff.1 hlength
      rcases bind_eq_error_iff.1 h with htask | ⟨_, -, h⟩
      · exact ⟨_, _, idField_eq_error htask⟩
      · cases h

theorem checkFilled_eq_error (h : checkFilled kind fields = .error fault) :
    ∃ position, fault = .emptyField kind.letter position := by
  unfold checkFilled at h
  split at h
  · exact ⟨_, (Except.error.inj h).symm⟩
  · cases h

/-- A number of fields is a fault of its own only if it is not the number that the command takes. -/
theorem ofFields_eq_fieldCount {letter : Char} {expected found : ℕ}
    (h : ofFields kind fields = .error (.fieldCount letter expected found)) : found ≠ expected := by
  by_cases hlength : fields.length = kind.fieldCount
  · rw [ofFields, if_neg (not_not.2 hlength)] at h
    rcases bind_eq_error_iff.1 h with hfilled | ⟨_, -, hnumbers⟩
    · obtain ⟨_, hfault⟩ := checkFilled_eq_error hfilled
      cases hfault
    · obtain ⟨_, _, hfault⟩ := ofNumbers_eq_error hlength hnumbers
      cases hfault
  · rw [ofFields_of_length_ne hlength, countFault] at h
    cases h
    exact hlength

theorem ofStatus_eq_fieldCount {letter : Char} {expected found : ℕ}
    (h : ofStatus cs = .error (.fieldCount letter expected found)) : found ≠ expected := by
  simp only [ofStatus] at h
  split at h
  · cases h
  · cases h
    exact List.length_pos_iff.2 (List.splitOn_ne_nil _ _) |>.ne'

theorem ofLetter_eq_fieldCount {first letter : Char} {expected found : ℕ}
    (h : ofLetter first cs = .error (.fieldCount letter expected found)) : found ≠ expected := by
  unfold ofLetter at h
  split at h
  · exact ofStatus_eq_fieldCount h
  · split at h
    · cases h
    · split at h
      · cases h
      · exact ofFields_eq_fieldCount h

theorem parse_eq_fieldCount {line : List Char} {letter : Char} {expected found : ℕ}
    (h : parse line = .error (.fieldCount letter expected found)) : found ≠ expected := by
  unfold parse at h
  split at h
  · cases h
  · exact ofLetter_eq_fieldCount h

/-- **The reader takes the sentences of the grammar, and nothing else.**  A line is read as a
command exactly if it is a sentence of this command without its blank ends; every other line has a
fault.  Of as many fields as the command takes, the last arm of `ofNumbers` gets none, and a fault
that says how many fields there are never finds as many as it expects. -/
theorem parse_exact (line : List Char) :
    (∀ c, parse line = .ok c ↔ Sentence (Blank.trim line) c) ∧
      ((∃ fault, parse line = .error fault) ↔ ∀ c, ¬ Sentence (Blank.trim line) c) ∧
      (∀ kind fields, fields.length = kind.fieldCount →
        ofNumbers kind fields ≠ .error (countFault kind fields)) ∧
      ∀ letter expected found,
        parse line = .error (.fieldCount letter expected found) → found ≠ expected := by
  refine ⟨fun c => parse_eq_ok_iff, ?_, fun kind fields hlength h => ?_,
    fun letter expected found => parse_eq_fieldCount⟩
  · constructor
    · rintro ⟨fault, hfault⟩ c hc
      rw [parse_of_sentence hc] at hfault
      cases hfault
    · intro hnone
      cases hparse : parse line with
      | ok c => exact absurd (sentence_of_parse hparse) (hnone c)
      | error fault => exact ⟨fault, rfl⟩
  · obtain ⟨name, value, hfault⟩ := ofNumbers_eq_error hlength h
    cases hfault

end Command

end RateMonotonic
