/-
**The texts of JSON.**

A value is a word, a number, a string, an array or an object; spaces may stand around everything.
The grammar is given apart from the readers, as a relation on texts: where a number ends, what a
backslash stands for, and how items are separated is said without reading anything.  A value is
followed by a space, a comma or a closing mark; only a number could go on with the text behind it,
and none of these characters belongs to a number.

The characters of a string may be spelled in several ways.  `Spelling` says which characters a
spelling stands for; a string that is skipped may also hold units that make up no character.

Main definitions:
* `Json.Spaces`, `Json.Ends` — what stands around a value, and what follows it;
* `Json.Spelling`, `Json.Body` — what stands between the quotes of a string;
* `Json.IsNumber` — numbers;
* `Json.Item`, `Json.Member`, `Json.arrayText`, `Json.objectText` — arrays and objects;
* `Json.IsValue` — **the text of a value**;
* `Json.Spells` — the texts of a given value.

Main results:
* `Json.stringBody_spelling`, `Json.stringBody_body` — **a string is read as the characters that it
  spells**, or skipped;
* `Json.spells_chars` — what is written for a value is one of its texts;
* `Json.Spells.isValue` — every text of a value is the text of some value.
-/

import Mathlib.Data.List.Forall2
import RateMonotonic.Json.Record
import RateMonotonic.Json.Value
import RateMonotonic.Proofs.CommandGrammar

set_option relaxedAutoImplicit false
set_option autoImplicit false

namespace RateMonotonic.Json

variable {cs gap rest : List Char} {c : Char} {n : ℕ}

/-! ### Spaces -/

/-- A row of spaces. -/
def Spaces (cs : List Char) : Prop := ∀ c ∈ cs, c = ' ' ∨ c = '\t' ∨ c = '\n' ∨ c = '\r'

theorem isSpace_iff : isSpace c = true ↔ c = ' ' ∨ c = '\t' ∨ c = '\n' ∨ c = '\r' := by
  simp [isSpace, or_assoc]

theorem spaces_nil : Spaces [] := fun _ hc => nomatch hc

theorem skipSpace_append (h : Spaces gap) (cs : List Char) : skipSpace (gap ++ cs) = skipSpace cs :=
  List.dropWhile_append_of_pos fun c hc => isSpace_iff.2 (h c hc)

theorem skipSpace_cons (h : isSpace c = false) (cs : List Char) : skipSpace (c :: cs) = c :: cs :=
  List.dropWhile_cons_of_neg (by simp [h])

theorem skipSpace_to (hgap : Spaces gap) (hc : isSpace c = false) (cs : List Char) :
    skipSpace (gap ++ c :: cs) = c :: cs := by
  rw [skipSpace_append hgap, skipSpace_cons hc]

theorem mark_append (hgap : Spaces gap) (hc : isSpace c = false) (cs : List Char) :
    mark c (gap ++ c :: cs) = .ok cs := by
  rw [mark, skipSpace_to hgap hc]
  simp [word]

/-- The characters that may follow a value: spaces, a comma, and closing marks. -/
def endMarks : List Char := [' ', '\t', '\n', '\r', ',', ']', '\x7d']

/-- What may follow a value. -/
def Ends (rest : List Char) : Prop := ∀ c, rest.head? = some c → c ∈ endMarks

theorem ends_nil : Ends [] := fun _ hc => nomatch hc

theorem ends_cons (h : c ∈ endMarks) : Ends (c :: cs) := by
  intro d hd
  cases hd
  exact h

/-- Spaces may stand before the comma or closing mark that follows a value. -/
theorem Ends.append (hgap : Spaces gap) (h : Ends rest) : Ends (gap ++ rest) := by
  intro c hc
  cases gap with
  | nil => exact h c hc
  | cons d gap =>
      cases hc
      rcases hgap c List.mem_cons_self with rfl | rfl | rfl | rfl <;> simp [endMarks]

/-- A text that does not go on with a character of a kind. -/
def Stops (p : Char → Bool) (cs : List Char) : Prop := ∀ c, cs.head? = some c → p c = false

theorem Ends.stops (h : Ends rest) {p : Char → Bool} (hp : endMarks.any p = false) :
    Stops p rest := by
  intro c hc
  simpa using List.any_eq_false.1 hp c (h c hc)

/-! ### Strings -/

/-- A hexadecimal digit, small or capital, and its value. -/
def HexDigit (c : Char) (n : ℕ) : Prop :=
  n < 16 ∧ (c = Nat.digitChar n ∨ c = (Nat.digitChar n).toUpper)

/-- A unit of four hexadecimal digits, and its value. -/
inductive HexUnit : List Char → ℕ → Prop
  | of {a b c d : Char} {w x y z : ℕ} : HexDigit a w → HexDigit b x → HexDigit c y → HexDigit d z →
      HexUnit [a, b, c, d] (4096 * w + 256 * x + 16 * y + z)

/-- The letters that may follow a backslash, with the characters that they stand for. -/
def escapes : List (Char × Char) :=
  [('\x22', '\x22'), ('\\', '\\'), ('/', '/'), ('b', '\x08'), ('f', '\x0c'), ('n', '\n'),
    ('r', '\r'), ('t', '\t')]

/-- **The characters that the text between two quotes stands for.**  A character beyond the first
`2 ^ 16` is two units. -/
inductive Spelling : List Char → List Char → Prop
  | nil : Spelling [] []
  | plain {c : Char} {t s : List Char} : c ≠ '\x22' → c ≠ '\\' → 32 ≤ c.toNat → Spelling t s →
      Spelling (c :: t) (c :: s)
  | letter {c d : Char} {t s : List Char} : (c, d) ∈ escapes → Spelling t s →
      Spelling ('\\' :: c :: t) (d :: s)
  | unit {u t s : List Char} {c : Char} : HexUnit u c.toNat → Spelling t s →
      Spelling ('\\' :: 'u' :: (u ++ t)) (c :: s)
  | pair {u v t s : List Char} {c : Char} {high low : ℕ} :
      HexUnit u (0xD800 + high) → HexUnit v (0xDC00 + low) → high < 0x400 → low < 0x400 →
      c.toNat = 0x10000 + high * 0x400 + low → Spelling t s →
      Spelling ('\\' :: 'u' :: (u ++ ('\\' :: 'u' :: (v ++ t)))) (c :: s)

/-- What may stand between two quotes, whatever its units. -/
inductive Body : List Char → Prop
  | nil : Body []
  | plain {c : Char} {t : List Char} : c ≠ '\x22' → c ≠ '\\' → 32 ≤ c.toNat → Body t → Body (c :: t)
  | letter {c d : Char} {t : List Char} : (c, d) ∈ escapes → Body t → Body ('\\' :: c :: t)
  | unit {u t : List Char} {n : ℕ} : HexUnit u n → Body t → Body ('\\' :: 'u' :: (u ++ t))

/-- A text between quotes. -/
def quote (t : List Char) : List Char := '\x22' :: (t ++ ['\x22'])

theorem hexDigit?_eq (h : HexDigit c n) : hexDigit? c = some n := by
  obtain ⟨hn, rfl | rfl⟩ := h
  · revert n
    decide
  · revert n
    decide

/-- A unit is read from the text that starts with it: its four digits have a byte each at least. -/
theorem hexUnit_append {u : List Char} (h : HexUnit u n) (rest : List Char) :
    hexUnit (u ++ rest) = .ok (n, rest) := by
  obtain @⟨a, b, c, d, w, x, y, z, ha, hb, hc, hd⟩ := h
  have hbytes : ¬byteCount [a, b, c, d] < 4 := by
    have := a.utf8Size_pos
    have := b.utf8Size_pos
    have := c.utf8Size_pos
    have := d.utf8Size_pos
    simp only [byteCount, List.foldl_cons, List.foldl_nil]
    omega
  have hrow : [a, b, c, d].mapM hexDigit? = some [w, x, y, z] := by
    simp [hexDigit?_eq ha, hexDigit?_eq hb, hexDigit?_eq hc, hexDigit?_eq hd]
  have htake : ([a, b, c, d] ++ rest).take 4 = [a, b, c, d] := rfl
  rw [hexUnit, htake, if_neg hbytes, hrow]
  simp only [List.foldl_cons, List.foldl_nil, List.cons_append, List.nil_append, List.drop_succ_cons,
    List.drop_zero]
  congr 2
  omega

theorem escaped?_eq {d : Char} (h : (c, d) ∈ escapes) : escaped? c = some d := by
  simp only [escapes, List.mem_cons, List.not_mem_nil, or_false, Prod.mk.injEq] at h
  rcases h with ⟨rfl, rfl⟩ | ⟨rfl, rfl⟩ | ⟨rfl, rfl⟩ | ⟨rfl, rfl⟩ | ⟨rfl, rfl⟩ | ⟨rfl, rfl⟩ |
    ⟨rfl, rfl⟩ | ⟨rfl, rfl⟩ <;> rfl

theorem escape_letter {d : Char} (h : (c, d) ∈ escapes) (units : Reader Char) (rest : List Char) :
    escape units (c :: rest) = .ok (d, rest) := by
  have hne : c ≠ 'u' := by
    rintro rfl
    revert h
    simp [escapes]
  simp [escape, hne, escaped?_eq h]

/-- A character is one unit if its number is that of the unit: no such number is half of a pair. -/
theorem codePoint_unit {u : List Char} (h : HexUnit u c.toNat) (rest : List Char) :
    codePoint (u ++ rest) = .ok (c, rest) := by
  have hvalid : ¬(0xD800 ≤ c.toNat ∧ c.toNat ≤ 0xDFFF) := by
    have := c.valid
    simp only [UInt32.isValidChar, Nat.isValidChar, Char.toNat] at this ⊢
    omega
  have htrailing : isTrailing c.toNat = false := by
    simp only [isTrailing, Bool.and_eq_false_iff, decide_eq_false_iff_not]
    omega
  have hleading : isLeading c.toNat = false := by
    simp only [isLeading, Bool.and_eq_false_iff, decide_eq_false_iff_not]
    omega
  simp [codePoint, hexUnit_append h, htrailing, hleading, bind, Except.bind, pure, Except.pure]

theorem codePoint_pair {u v : List Char} {high low : ℕ} (hu : HexUnit u (0xD800 + high))
    (hv : HexUnit v (0xDC00 + low)) (hhigh : high < 0x400) (hlow : low < 0x400)
    (hc : c.toNat = 0x10000 + high * 0x400 + low) (rest : List Char) :
    codePoint (u ++ ('\\' :: 'u' :: (v ++ rest))) = .ok (c, rest) := by
  have hfirst : isTrailing (0xD800 + high) = false := by
    simp only [isTrailing, Bool.and_eq_false_iff, decide_eq_false_iff_not]
    omega
  have hleading : isLeading (0xD800 + high) = true := by
    simp only [isLeading, Bool.and_eq_true, decide_eq_true_eq]
    omega
  have hsecond : isTrailing (0xDC00 + low) = true := by
    simp only [isTrailing, Bool.and_eq_true, decide_eq_true_eq]
    omega
  have hnumber : 0x10000 + (0xD800 + high - 0xD800) * 0x400 + (0xDC00 + low - 0xDC00) = c.toNat := by
    omega
  simp only [codePoint, hexUnit_append hu, hfirst, hleading, bind, Except.bind, word, if_true,
    hexUnit_append hv, hsecond, hnumber, Char.ofNat_toNat, pure, Except.pure]
  rfl

theorem loose_unit {u : List Char} (h : HexUnit u n) (rest : List Char) :
    loose ('u' :: (u ++ rest)) = .ok (Char.ofNat n, rest) := by
  simp [loose, escape, hexUnit_append h, bind, Except.bind, pure, Except.pure]

section

variable {backslash : Reader Char} {d : Char} {s more : List Char}

theorem stringBody_plain (hquote : c ≠ '\x22') (hslash : c ≠ '\\') (hcontrol : 32 ≤ c.toNat)
    (h : stringBody backslash n cs = .ok (s, rest)) :
    stringBody backslash (n + 1) (c :: cs) = .ok (c :: s, rest) := by
  have hc : ¬c.toNat < 32 := by omega
  simp [stringBody, hquote, hslash, hc, h, bind, Except.bind, pure, Except.pure]

theorem stringBody_escape (hescape : backslash cs = .ok (d, more))
    (h : stringBody backslash n more = .ok (s, rest)) :
    stringBody backslash (n + 1) ('\\' :: cs) = .ok (d :: s, rest) := by
  simp [stringBody, hescape, h, bind, Except.bind, pure, Except.pure]

end

/-- **A spelled string is read as its characters.** -/
theorem stringBody_spelling {t s : List Char} (h : Spelling t s) (hn : t.length < n)
    (rest : List Char) : stringBody strict n (t ++ '\x22' :: rest) = .ok (s, rest) := by
  induction h generalizing n with
  | nil =>
      obtain ⟨n, rfl⟩ := Nat.exists_eq_succ_of_ne_zero (Nat.ne_zero_of_lt hn)
      rfl
  | plain hquote hslash hcontrol _ ih =>
      obtain ⟨n, rfl⟩ := Nat.exists_eq_succ_of_ne_zero (Nat.ne_zero_of_lt hn)
      exact stringBody_plain hquote hslash hcontrol (ih (Nat.lt_of_succ_lt_succ hn))
  | letter hescape _ ih =>
      obtain ⟨n, rfl⟩ := Nat.exists_eq_succ_of_ne_zero (Nat.ne_zero_of_lt hn)
      refine stringBody_escape (escape_letter hescape codePoint _) (ih ?_)
      simp only [List.length_cons] at hn
      omega
  | unit hunit _ ih =>
      obtain ⟨n, rfl⟩ := Nat.exists_eq_succ_of_ne_zero (Nat.ne_zero_of_lt hn)
      rw [List.cons_append, List.cons_append, List.append_assoc]
      refine stringBody_escape (codePoint_unit hunit _) (ih ?_)
      simp only [List.length_cons, List.length_append] at hn
      omega
  | pair hu hv hhigh hlow hc _ ih =>
      obtain ⟨n, rfl⟩ := Nat.exists_eq_succ_of_ne_zero (Nat.ne_zero_of_lt hn)
      rw [List.cons_append, List.cons_append, List.append_assoc, List.cons_append, List.cons_append,
        List.append_assoc]
      refine stringBody_escape (codePoint_pair hu hv hhigh hlow hc _) (ih ?_)
      simp only [List.length_cons, List.length_append] at hn
      omega

/-- **A string is skipped**, whatever its units. -/
theorem stringBody_body {t : List Char} (h : Body t) (hn : t.length < n) (rest : List Char) :
    ∃ s, stringBody loose n (t ++ '\x22' :: rest) = .ok (s, rest) := by
  induction h generalizing n with
  | nil =>
      obtain ⟨n, rfl⟩ := Nat.exists_eq_succ_of_ne_zero (Nat.ne_zero_of_lt hn)
      exact ⟨[], rfl⟩
  | plain hquote hslash hcontrol _ ih =>
      obtain ⟨n, rfl⟩ := Nat.exists_eq_succ_of_ne_zero (Nat.ne_zero_of_lt hn)
      obtain ⟨s, hs⟩ := ih (Nat.lt_of_succ_lt_succ hn)
      exact ⟨_, stringBody_plain hquote hslash hcontrol hs⟩
  | @letter c d t hescape _ ih =>
      obtain ⟨n, rfl⟩ := Nat.exists_eq_succ_of_ne_zero (Nat.ne_zero_of_lt hn)
      have hlt : t.length < n := by
        simp only [List.length_cons] at hn
        omega
      obtain ⟨s, hs⟩ := ih hlt
      exact ⟨_, stringBody_escape (escape_letter hescape _ _) hs⟩
  | @unit u t m hunit _ ih =>
      obtain ⟨n, rfl⟩ := Nat.exists_eq_succ_of_ne_zero (Nat.ne_zero_of_lt hn)
      have hlt : t.length < n := by
        simp only [List.length_cons, List.length_append] at hn
        omega
      obtain ⟨s, hs⟩ := ih hlt
      rw [List.cons_append, List.cons_append, List.append_assoc]
      exact ⟨_, stringBody_escape (loose_unit hunit _) hs⟩

/-! ### Numbers -/

/-- One or more digits. -/
def Digits (cs : List Char) : Prop := cs ≠ [] ∧ ∀ c ∈ cs, c.isDigit = true

/-- The whole part of a number: a zero alone, or digits that start with another one. -/
def Whole (cs : List Char) : Prop := cs = ['0'] ∨ Digits cs ∧ cs.head? ≠ some '0'

/-- A fraction, or none. -/
def Fraction (cs : List Char) : Prop := cs = [] ∨ ∃ row, Digits row ∧ cs = '.' :: row

/-- An exponent, or none. -/
def Exponent (cs : List Char) : Prop :=
  cs = [] ∨ ∃ mark sign row, (mark = 'e' ∨ mark = 'E') ∧ (sign = [] ∨ sign = ['+'] ∨ sign = ['-']) ∧
    Digits row ∧ cs = mark :: (sign ++ row)

/-- A number of any size. -/
def IsNumber (cs : List Char) : Prop :=
  ∃ minus whole fraction exponent, AtMostOne '-' minus ∧ Whole whole ∧ Fraction fraction ∧
    Exponent exponent ∧ cs = minus ++ (whole ++ (fraction ++ exponent))

/-! ### Arrays and objects -/

/-- A row of spaces, which may be empty. -/
abbrev Gap := { cs : List Char // Spaces cs }

/-- No spaces. -/
def noGap : Gap := ⟨[], spaces_nil⟩

/-- A value with the spaces around it. -/
structure Item where
  before : Gap
  value : List Char
  after : Gap

/-- A key with the spaces around it, and the item behind its colon. -/
structure Member where
  before : Gap
  /-- The text between the quotes. -/
  key : List Char
  between : Gap
  item : Item

def Item.text (i : Item) : List Char := i.before ++ (i.value ++ i.after)

def Member.text (m : Member) : List Char :=
  m.before ++ (quote m.key ++ (m.between ++ ':' :: m.item.text))

/-- Texts with commas between them.  Without a text there may be spaces. -/
def row (gap : Gap) : List (List Char) → List Char
  | [] => gap
  | t :: ts => t ++ ts.flatMap (',' :: ·)

/-- An array of items. -/
def arrayText (gap : Gap) (items : List Item) : List Char :=
  '[' :: (row gap (items.map Item.text) ++ [']'])

/-- An object of members. -/
def objectText (gap : Gap) (members : List Member) : List Char :=
  '\x7b' :: (row gap (members.map Member.text) ++ ['\x7d'])

/-- The words that are values. -/
def words : List (List Char) :=
  [['n', 'u', 'l', 'l'], ['t', 'r', 'u', 'e'], ['f', 'a', 'l', 's', 'e']]

/-- **The text of a value.** -/
inductive IsValue : List Char → Prop
  | word {w : List Char} : w ∈ words → IsValue w
  | number {cs : List Char} : IsNumber cs → IsValue cs
  | string {t : List Char} : Body t → IsValue (quote t)
  | array (gap : Gap) {items : List Item} : (∀ i ∈ items, IsValue i.value) →
      IsValue (arrayText gap items)
  | object (gap : Gap) {members : List Member} : (∀ m ∈ members, Body m.key) →
      (∀ m ∈ members, IsValue m.item.value) → IsValue (objectText gap members)

/-! ### The texts of a value -/

/-- **The texts of a given value.**  Numbers have one text, strings may be spelled in several ways,
and the members of an object come in their order. -/
inductive Spells : Value → List Char → Prop
  | nothing : Spells .nothing ['n', 'u', 'l', 'l']
  | number (n : ℤ) : Spells (.number n) (integerChars n)
  | string {s : String} {t : List Char} : Spelling t s.toList → Spells (.string s) (quote t)
  | array (gap : Gap) {items : List Item} {values : List Value} : items.length = values.length →
      (∀ i (hi : i < items.length) (hv : i < values.length), Spells values[i] items[i].value) →
      Spells (.array values) (arrayText gap items)
  | object (gap : Gap) {members : List Member} {pairs : List (String × Value)} :
      members.length = pairs.length →
      (∀ i (hm : i < members.length) (hp : i < pairs.length),
        Spelling members[i].key pairs[i].1.toList) →
      (∀ i (hm : i < members.length) (hp : i < pairs.length),
        Spells pairs[i].2 members[i].item.value) →
      Spells (.object pairs) (objectText gap members)

theorem HexDigit.digitChar {n : ℕ} (h : n < 16) : HexDigit (Nat.digitChar n) n := ⟨h, Or.inl rfl⟩

/-- A character between quotes is spelled as it is written. -/
theorem spelling_escapeChar {t s : List Char} (c : Char) (h : Spelling t s) :
    Spelling (escapeChar c ++ t) (c :: s) := by
  unfold escapeChar
  split
  · next hc =>
      refine Spelling.letter ?_ h
      rcases hc with rfl | rfl <;> simp [escapes]
  · next hplain =>
      split
      · next hc => exact Spelling.letter (by simp [escapes, hc]) h
      split
      · next hc => exact Spelling.letter (by simp [escapes, hc]) h
      split
      · next hc => exact Spelling.letter (by simp [escapes, hc]) h
      split
      · next hc => exact Spelling.letter (by simp [escapes, hc]) h
      split
      · next hc => exact Spelling.letter (by simp [escapes, hc]) h
      split
      · next hcontrol =>
          have hunit := HexUnit.of (HexDigit.digitChar (n := 0) (by omega))
            (HexDigit.digitChar (n := 0) (by omega))
            (HexDigit.digitChar (n := c.toNat / 16) (by omega))
            (HexDigit.digitChar (n := c.toNat % 16) (by omega))
          have hvalue : 4096 * 0 + 256 * 0 + 16 * (c.toNat / 16) + c.toNat % 16 = c.toNat := by omega
          rw [hvalue] at hunit
          exact Spelling.unit hunit h
      · next hcontrol =>
          rw [not_or] at hplain
          exact Spelling.plain hplain.1 hplain.2 (by omega) h

theorem spelling_flatMap (s : List Char) : Spelling (s.flatMap escapeChar) s := by
  induction s with
  | nil => exact Spelling.nil
  | cons c s ih => exact spelling_escapeChar c ih

/-- An item as it is written, without any spaces. -/
def Item.written (v : Value) : Item := ⟨noGap, v.chars, noGap⟩

/-- A member as it is written, without any spaces. -/
def Member.written (p : String × Value) : Member :=
  ⟨noGap, p.1.toList.flatMap escapeChar, noGap, Item.written p.2⟩

theorem text_written_item (v : Value) : (Item.written v).text = v.chars := List.append_nil _

theorem text_written_member (p : String × Value) :
    (Member.written p).text = quoted p.1 ++ ':' :: p.2.chars := by
  change quoted p.1 ++ ':' :: (Item.written p.2).text = _
  rw [text_written_item]

theorem row_cons (gap : Gap) (t u : List Char) (ts : List (List Char)) :
    row gap (t :: u :: ts) = t ++ ',' :: row gap (u :: ts) := rfl

theorem itemChars_eq (values : List Value) :
    Value.itemChars values = row noGap ((values.map Item.written).map Item.text) := by
  induction values with
  | nil => simp [Value.itemChars, row, noGap]
  | cons v values ih =>
      cases values with
      | nil => simp [Value.itemChars, row, text_written_item]
      | cons w values =>
          rw [Value.itemChars, ih]
          · simp only [List.map_cons, row_cons, text_written_item]
          · exact nofun

theorem memberChars_eq (pairs : List (String × Value)) :
    Value.memberChars pairs = row noGap ((pairs.map Member.written).map Member.text) := by
  induction pairs with
  | nil => simp [Value.memberChars, row, noGap]
  | cons p pairs ih =>
      obtain ⟨k, v⟩ := p
      cases pairs with
      | nil => simp [Value.memberChars, row, text_written_member]
      | cons q pairs =>
          rw [Value.memberChars, ih]
          · simp only [List.map_cons, row_cons, text_written_member, List.append_assoc,
              List.cons_append]
          · exact nofun

/-- An object as it is written. -/
theorem chars_object (pairs : List (String × Value)) :
    (Value.object pairs).chars = objectText noGap (pairs.map Member.written) := by
  rw [Value.chars, memberChars_eq, objectText]

theorem chars_array (values : List Value) :
    (Value.array values).chars = arrayText noGap (values.map Item.written) := by
  rw [Value.chars, itemChars_eq, arrayText]

mutual

/-- **What is written for a value is one of its texts.** -/
theorem spells_chars : ∀ v : Value, Spells v v.chars
  | .nothing => by
      rw [Value.chars]
      exact Spells.nothing
  | .number n => by
      rw [Value.chars]
      exact Spells.number n
  | .string s => by
      rw [Value.chars]
      exact Spells.string (spelling_flatMap s.toList)
  | .array values => by
      rw [chars_array]
      refine Spells.array noGap (List.length_map _) fun i _ hv => ?_
      rw [List.getElem_map]
      exact spells_items values _ (List.getElem_mem hv)
  | .object pairs => by
      rw [chars_object]
      refine Spells.object noGap (List.length_map _) (fun i _ hp => ?_) fun i _ hp => ?_
      · rw [List.getElem_map]
        exact spelling_flatMap _
      · rw [List.getElem_map]
        exact spells_members pairs _ (List.getElem_mem hp)

theorem spells_items : ∀ values : List Value, ∀ v ∈ values, Spells v v.chars
  | [] => nofun
  | v :: values => List.forall_mem_cons.2 ⟨spells_chars v, spells_items values⟩

theorem spells_members : ∀ pairs : List (String × Value), ∀ p ∈ pairs, Spells p.2 p.2.chars
  | [] => nofun
  | (_, v) :: pairs => List.forall_mem_cons.2 ⟨spells_chars v, spells_members pairs⟩

end

/-! ### Texts of values are texts -/

theorem Spelling.body {t s : List Char} (h : Spelling t s) : Body t := by
  induction h with
  | nil => exact .nil
  | plain hquote hslash hcontrol _ ih => exact .plain hquote hslash hcontrol ih
  | letter hescape _ ih => exact .letter hescape ih
  | unit hunit _ ih => exact .unit hunit ih
  | pair hu hv _ _ _ _ ih => exact .unit hu (.unit hv ih)

/-- Only zero starts with a zero. -/
theorem exists_digits_cons (hn : 0 < n) : ∃ c row, Decimal.digits n = c :: row ∧ c ≠ '0' := by
  induction n using Nat.strongRecOn with
  | _ n ih =>
      rw [Decimal.digits]
      split
      · next hlt =>
          refine ⟨_, _, rfl, fun heq => ?_⟩
          have hzero := Decimal.toNat_digit n
          rw [heq, Nat.mod_eq_of_lt hlt] at hzero
          have : '0'.toNat = 48 := rfl
          omega
      · obtain ⟨c, row, heq, hc⟩ := ih (n / 10) (by omega) (by omega)
        exact ⟨c, _, by rw [heq]; rfl, hc⟩

theorem whole_digits (n : ℕ) : Whole (Decimal.digits n) := by
  rcases Nat.eq_zero_or_pos n with rfl | hpos
  · left
    rw [Decimal.digits]
    rfl
  · right
    obtain ⟨c, row, heq, hc⟩ := exists_digits_cons hpos
    refine ⟨⟨Decimal.digits_ne_nil n, fun d hd => ?_⟩, by simp [heq, hc]⟩
    exact Decimal.isDigit_iff.1 (Decimal.isDigit_of_mem_digits hd)

theorem isNumber_integerChars (n : ℤ) : IsNumber (integerChars n) := by
  unfold integerChars
  split
  · exact ⟨['-'], _, [], [], Or.inr rfl, whole_digits n.natAbs, Or.inl rfl, Or.inl rfl, by simp⟩
  · exact ⟨[], _, [], [], Or.inl rfl, whole_digits n.natAbs, Or.inl rfl, Or.inl rfl, by simp⟩

/-- **Every text of a value is the text of some value.** -/
theorem Spells.isValue {v : Value} (h : Spells v cs) : IsValue cs := by
  induction h with
  | nothing => exact .word (by simp [words])
  | number n => exact .number (isNumber_integerChars n)
  | string hspelling => exact .string hspelling.body
  | array gap hlength _ ih =>
      refine .array gap fun i hi => ?_
      obtain ⟨k, hk, rfl⟩ := List.getElem_of_mem hi
      exact ih k hk (hlength ▸ hk)
  | object gap hlength hkeys _ ih =>
      refine .object gap (fun m hm => ?_) fun m hm => ?_
      · obtain ⟨k, hk, rfl⟩ := List.getElem_of_mem hm
        exact (hkeys k hk (hlength ▸ hk)).body
      · obtain ⟨k, hk, rfl⟩ := List.getElem_of_mem hm
        exact ih k hk (hlength ▸ hk)

end RateMonotonic.Json
