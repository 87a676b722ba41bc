/-
**Skipping the values of JSON.**

A key that names no field comes with a value that nobody looks at, and the reader has to find its
end.  Whatever the grammar calls a value is skipped, whatever its size and depth, and nothing behind
it is touched: numbers are not computed, so none of them is too great, and the units of a string
need not make up characters.

The reader is given a number of steps.  A value takes two steps for each of its characters at most,
and a list of items two more: one for every item, and one to see the closing mark.

Main definitions:
* `Json.Skips` — a text is skipped wherever it stands, with enough steps;
* `Json.Laid` — how the text of an item is laid out around its value.

Main results:
* `Json.skipNumber_append` — numbers are skipped;
* `Json.skipItemsIn_tail`, `Json.skipItemsIn_row` — **items are skipped if their values are**;
* `Json.IsValue.skips` — **every value is skipped**.
-/

import RateMonotonic.Proofs.JsonGrammar

set_option relaxedAutoImplicit false
set_option autoImplicit false

namespace RateMonotonic.Json

variable {cs gap rest v : List Char} {c : Char} {n : ℕ}

/-! ### Numbers -/

theorem isDigit_of_digits {row : List Char} (h : Digits row) : ∀ c ∈ row, Decimal.isDigit c = true :=
  fun c hc => Decimal.isDigit_iff.2 (h.2 c hc)

theorem dropWhile_append_of_stops {p : Char → Bool} {row : List Char} (h : ∀ c ∈ row, p c = true)
    (hrest : Stops p rest) : (row ++ rest).dropWhile p = rest := by
  rw [List.dropWhile_append_of_pos h]
  cases rest with
  | nil => rfl
  | cons c rest => exact List.dropWhile_cons_of_neg (by simp [hrest c rfl])

theorem skipDigits_append {row : List Char} (h : Digits row) (hrest : Stops Decimal.isDigit rest) :
    skipDigits (row ++ rest) = .ok rest := by
  have hdigits := isDigit_of_digits h
  obtain ⟨c, row, rfl⟩ := List.exists_cons_of_ne_nil h.1
  have hhead : ((c :: row ++ rest).head?.any Decimal.isDigit) = true := by
    simpa using hdigits c List.mem_cons_self
  rw [skipDigits, if_pos hhead, dropWhile_append_of_stops hdigits hrest]

theorem Whole.exists_cons {whole : List Char} (h : Whole whole) :
    ∃ c row, whole = c :: row ∧ Decimal.isDigit c = true := by
  rcases h with rfl | ⟨hdigits, -⟩
  · exact ⟨'0', [], rfl, by decide⟩
  · obtain ⟨c, row, rfl⟩ := List.exists_cons_of_ne_nil hdigits.1
    exact ⟨c, row, rfl, isDigit_of_digits hdigits c List.mem_cons_self⟩

theorem skipWhole_append {whole : List Char} (h : Whole whole)
    (hrest : Stops Decimal.isDigit rest) : skipWhole (whole ++ rest) = .ok rest := by
  rcases h with rfl | ⟨hdigits, hzero⟩
  · have hnext : ¬(rest.head?.any Decimal.isDigit) = true := by
      cases rest with
      | nil => simp
      | cons c rest => simp [hrest c rfl]
    rw [List.singleton_append, skipWhole, if_pos rfl, if_neg hnext]
  · obtain ⟨c, row, rfl⟩ := List.exists_cons_of_ne_nil hdigits.1
    have hc : c ≠ '0' := fun heq => hzero (congrArg some heq)
    rw [List.cons_append, skipWhole, if_neg hc, ← List.cons_append, skipDigits_append hdigits hrest]

/-- What follows the whole part and the fraction of a number. -/
theorem Exponent.stops {exponent : List Char} (h : Exponent exponent) (hrest : Ends rest)
    {p : Char → Bool} (hp : ('e' :: 'E' :: endMarks).any p = false) :
    Stops p (exponent ++ rest) := by
  rw [List.any_cons, List.any_cons, Bool.or_eq_false_iff, Bool.or_eq_false_iff] at hp
  rcases h with rfl | ⟨mark, sign, row, hmark, -, -, rfl⟩
  · exact hrest.stops hp.2.2
  · intro c hc
    cases hc
    rcases hmark with rfl | rfl
    · exact hp.1
    · exact hp.2.1

theorem Fraction.stops {fraction exponent : List Char} (h : Fraction fraction)
    (hexponent : Exponent exponent) (hrest : Ends rest) {p : Char → Bool}
    (hp : ('.' :: 'e' :: 'E' :: endMarks).any p = false) :
    Stops p (fraction ++ (exponent ++ rest)) := by
  rw [List.any_cons, Bool.or_eq_false_iff] at hp
  rcases h with rfl | ⟨row, -, rfl⟩
  · exact hexponent.stops hrest hp.2
  · intro c hc
    cases hc
    exact hp.1

theorem skipFraction_append {fraction : List Char} (h : Fraction fraction)
    (hdigit : Stops Decimal.isDigit rest) (hpoint : Stops (· == '.') rest) :
    skipFraction (fraction ++ rest) = .ok rest := by
  rcases h with rfl | ⟨row, hrow, rfl⟩
  · cases rest with
    | nil => rfl
    | cons c rest =>
        have hc : c ≠ '.' := by simpa using hpoint c rfl
        rw [List.nil_append, skipFraction, if_neg hc]
  · rw [List.cons_append, skipFraction, if_pos rfl, skipDigits_append hrow hdigit]

theorem sign_append {s row : List Char} (hs : s = [] ∨ s = ['+'] ∨ s = ['-']) (hrow : Digits row)
    (rest : List Char) : (sign (s ++ (row ++ rest))).2 = row ++ rest := by
  rcases hs with rfl | rfl | rfl
  · have hdigits := isDigit_of_digits hrow
    obtain ⟨c, row, rfl⟩ := List.exists_cons_of_ne_nil hrow.1
    have hc := hdigits c List.mem_cons_self
    have hminus : c ≠ '-' := by
      rintro rfl
      revert hc
      decide
    have hplus : c ≠ '+' := by
      rintro rfl
      revert hc
      decide
    simp [sign, hminus, hplus]
  · rfl
  · rfl

theorem skipExponent_append {exponent : List Char} (h : Exponent exponent) (hrest : Ends rest) :
    skipExponent (exponent ++ rest) = .ok rest := by
  rcases h with rfl | ⟨mark, s, row, hmark, hsign, hrow, rfl⟩
  · cases rest with
    | nil => rfl
    | cons c rest =>
        have hstops : Stops isExponentMark (c :: rest) := hrest.stops (by decide)
        rw [List.nil_append, skipExponent, if_neg (by simp [hstops c rfl])]
  · have hexponent : isExponentMark mark = true := by
      rcases hmark with rfl | rfl <;> rfl
    have hdigit : Stops Decimal.isDigit rest := hrest.stops (by decide)
    rw [List.cons_append, List.append_assoc, skipExponent, if_pos hexponent,
      sign_append hsign hrow, skipDigits_append hrow hdigit]

/-- **A number is skipped**, whatever its value. -/
theorem skipNumber_append (h : IsNumber cs) (hrest : Ends rest) :
    skipNumber (cs ++ rest) = .ok rest := by
  obtain ⟨minus, whole, fraction, exponent, hminus, hwhole, hfraction, hexponent, rfl⟩ := h
  have hunsigned : (if ((minus ++ (whole ++ (fraction ++ exponent))) ++ rest).head? = some '-' then
      ((minus ++ (whole ++ (fraction ++ exponent))) ++ rest).drop 1
      else (minus ++ (whole ++ (fraction ++ exponent))) ++ rest) =
        whole ++ (fraction ++ (exponent ++ rest)) := by
    rcases hminus with rfl | rfl
    · obtain ⟨c, row, rfl, hc⟩ := hwhole.exists_cons
      have hne : c ≠ '-' := by
        rintro rfl
        revert hc
        decide
      simp [hne]
    · simp
  rw [skipNumber, hunsigned,
    skipWhole_append hwhole (hfraction.stops hexponent hrest (by decide))]
  change skipFraction (fraction ++ (exponent ++ rest)) >>= skipExponent = _
  rw [skipFraction_append hfraction (hexponent.stops hrest (by decide))
    (hexponent.stops hrest (by decide))]
  exact skipExponent_append hexponent hrest

/-! ### Single values -/

/-- A text is skipped wherever it stands, in two steps for each of its characters. -/
def Skips (v : List Char) : Prop :=
  ∀ n gap rest, Spaces gap → Ends rest → 2 * v.length ≤ n →
    skipValueIn n (gap ++ (v ++ rest)) = .ok rest

/-- A value that is neither array nor object takes one step. -/
theorem skips_of_scalar (hspace : isSpace c = false) (harray : c ≠ '[') (hobject : c ≠ '\x7b')
    (h : ∀ rest, Ends rest → skipScalar c (cs ++ rest) = .ok rest) : Skips (c :: cs) := by
  intro n gap rest hgap hrest hn
  obtain ⟨n, rfl⟩ := Nat.exists_eq_succ_of_ne_zero (n := n) (by simp at hn; omega)
  rw [List.cons_append, skipValueIn, skipSpace_to hgap hspace]
  simp only [if_neg harray, if_neg hobject, h rest hrest]

theorem skips_word {w : List Char} (h : w ∈ words) : Skips w := by
  simp only [words, List.mem_cons, List.not_mem_nil, or_false] at h
  rcases h with rfl | rfl | rfl
  · exact skips_of_scalar (by decide) (by decide) (by decide) fun rest _ =>
      word_append ['u', 'l', 'l'] rest
  · exact skips_of_scalar (by decide) (by decide) (by decide) fun rest _ =>
      word_append ['r', 'u', 'e'] rest
  · exact skips_of_scalar (by decide) (by decide) (by decide) fun rest _ =>
      word_append ['a', 'l', 's', 'e'] rest

/-- A number starts with a minus sign or a digit. -/
theorem IsNumber.exists_cons (h : IsNumber cs) :
    ∃ c row, cs = c :: row ∧ (c = '-' ∨ Decimal.isDigit c = true) := by
  obtain ⟨minus, whole, fraction, exponent, hminus, hwhole, -, -, rfl⟩ := h
  rcases hminus with rfl | rfl
  · obtain ⟨c, row, rfl, hc⟩ := hwhole.exists_cons
    exact ⟨c, _, rfl, Or.inr hc⟩
  · exact ⟨'-', _, rfl, Or.inl rfl⟩

/-- The first character of a number starts nothing else. -/
theorem ne_of_numeric {d : Char} (h : c = '-' ∨ Decimal.isDigit c = true) (hminus : d ≠ '-')
    (hdigit : Decimal.isDigit d = false) : c ≠ d := by
  rintro rfl
  rcases h with rfl | hc
  · exact hminus rfl
  · rw [hdigit] at hc
    cases hc

theorem isSpace_of_numeric (h : c = '-' ∨ Decimal.isDigit c = true) : isSpace c = false := by
  by_contra hspace
  rcases isSpace_iff.1 (by simpa using hspace) with hc | hc | hc | hc <;>
    exact ne_of_numeric h (by decide) (by decide) hc

theorem skips_number (h : IsNumber cs) : Skips cs := by
  obtain ⟨c, row, rfl, hc⟩ := h.exists_cons
  have hne (d : Char) : d ≠ '-' → Decimal.isDigit d = false → c ≠ d := ne_of_numeric hc
  refine skips_of_scalar (isSpace_of_numeric hc) (hne '[' (by decide) (by decide))
    (hne '\x7b' (by decide) (by decide)) fun rest hrest => ?_
  have hnumeric : (c = '-' || Decimal.isDigit c) = true := by simpa using hc
  rw [skipScalar, if_neg (hne 'n' (by decide) (by decide)), if_neg (hne 't' (by decide) (by decide)),
    if_neg (hne 'f' (by decide) (by decide)), if_neg (hne '\x22' (by decide) (by decide)),
    if_pos hnumeric, ← List.cons_append, skipNumber_append h hrest]

theorem skips_string {t : List Char} (h : Body t) : Skips (quote t) := by
  refine skips_of_scalar (by decide) (by decide) (by decide) fun rest _ => ?_
  have hn : t.length < ((t ++ ['\x22']) ++ rest).length := by
    simp only [List.length_append, List.length_singleton]
    omega
  obtain ⟨s, hs⟩ := stringBody_body h hn rest
  rw [List.append_assoc, List.singleton_append] at hs ⊢
  rw [skipScalar, if_neg (by decide), if_neg (by decide), if_neg (by decide), if_pos rfl, hs]
  rfl

/-! ### Lists of items -/

section

variable {close : Char}

/-- The first item of a list comes without a comma. -/
theorem nextItem_first (hgap : Spaces gap) (hspace : isSpace c = false) (hclose : c ≠ close)
    (cs : List Char) : nextItem close true (gap ++ c :: cs) = .ok (some (c :: cs)) := by
  rw [nextItem, skipSpace_to hgap hspace]
  simp [hclose]

/-- Every other item comes behind a comma. -/
theorem nextItem_comma {before : List Char} (hgap : Spaces gap) (hbefore : Spaces before)
    (hspace : isSpace c = false) (hcomma : ',' ≠ close) (hclose : c ≠ close) (cs : List Char) :
    nextItem close false (gap ++ ',' :: (before ++ c :: cs)) = .ok (some (c :: cs)) := by
  rw [nextItem, skipSpace_to hgap (by decide)]
  simp only [if_neg hcomma, Bool.false_eq_true, if_false, if_true, skipSpace_to hbefore hspace,
    if_neg hclose]

theorem nextItem_close (hgap : Spaces gap) (hspace : isSpace close = false) (first : Bool)
    (cs : List Char) : nextItem close first (gap ++ close :: cs) = .ok none := by
  rw [nextItem, skipSpace_to hgap hspace]
  simp

/-- What stands between the start of an item and its value: nothing, or a key and a colon. -/
def opening (close : Char) (item : List Char) : Except Fault (List Char) :=
  if close = objectEnd then skipKey item else .ok item

/-- **The layout of an item**: spaces, a lead, and the value between spaces.  Neither a space nor the
closing mark starts the lead or the value. -/
inductive Laid (close : Char) : List Char → List Char → Prop
  | of (before : Gap) {lead : List Char} (gap : Gap) {v : List Char} (after : Gap) {c : Char}
      {more : List Char} : (∀ rest, opening close (lead ++ rest) = .ok rest) →
      lead ++ (gap.1 ++ v) = c :: more → isSpace c = false → c ≠ close →
      Laid close (before ++ (lead ++ (gap ++ (v ++ after)))) v

/-- The marks at the end of lists. -/
def IsClosing (close : Char) : Prop := close = arrayEnd ∨ close = objectEnd

theorem IsClosing.isSpace (h : IsClosing close) : isSpace close = false := by
  rcases h with rfl | rfl <;> decide

theorem IsClosing.comma_ne (h : IsClosing close) : ',' ≠ close := by
  rcases h with rfl | rfl <;> decide

theorem IsClosing.ends (h : IsClosing close) : Ends (close :: cs) := by
  rcases h with rfl | rfl
  · exact ends_cons (by decide)
  · exact ends_cons (by decide)

/-- What stands behind an item: the closing mark, or a comma. -/
theorem ends_tail (h : IsClosing close) (texts : List (List Char)) :
    Ends (texts.flatMap (',' :: ·) ++ close :: rest) := by
  cases texts with
  | nil => exact h.ends
  | cons t texts => exact ends_cons (by decide)

/-- **One item takes one step**, be it the first one or behind a comma.  The spaces behind its value
are left. -/
theorem Laid.skipItemsIn_step {t : List Char} (h : Laid close t v) (hskips : Skips v)
    (hclose : IsClosing close) (hn : 2 * t.length ≤ n) :
    ∃ after : Gap, after.1.length < t.length ∧ ∀ tail, Ends tail →
      skipItemsIn (n + 1) close true (t ++ tail) = skipItemsIn n close false (after ++ tail) ∧
      ∀ gap, Spaces gap → skipItemsIn (n + 1) close false (gap ++ ',' :: (t ++ tail)) =
        skipItemsIn n close false (after ++ tail) := by
  obtain @⟨before, lead, gap, _, after, c, more, hlead, hstart, hspace, hne⟩ := h
  have hlength := congrArg List.length hstart
  simp only [List.length_append, List.length_cons] at hlength hn
  refine ⟨after, ?_, fun tail htail => ?_⟩
  · simp only [List.length_append]
    omega
  · have hitem {cs : List Char} {first : Bool}
        (hnext : nextItem close first cs = .ok (some (c :: (more ++ (after ++ tail))))) :
        skipItemsIn (n + 1) close first cs = skipItemsIn n close false (after ++ tail) := by
      have hopening := hlead (gap ++ (v ++ (after ++ tail)))
      rw [opening] at hopening
      rw [← List.cons_append, ← hstart, List.append_assoc, List.append_assoc] at hnext
      rw [skipItemsIn, hnext]
      simp only [hopening, hskips n _ _ gap.2 (htail.append after.2) (by omega)]
    have htext : (before.1 ++ (lead ++ (gap.1 ++ (v ++ after.1)))) ++ tail =
        before ++ c :: (more ++ (after ++ tail)) := by
      rw [← List.cons_append, ← hstart]
      simp only [List.append_assoc]
    rw [htext]
    exact ⟨hitem (nextItem_first before.2 hspace hne _),
      fun gap hgap => hitem (nextItem_comma hgap before.2 hspace hclose.comma_ne hne _)⟩

/-- **The items behind an item** are skipped, if their values are. -/
theorem skipItemsIn_tail (hclose : IsClosing close) {texts values : List (List Char)}
    (hlaid : List.Forall₂ (fun t v => Laid close t v ∧ Skips v) texts values) (gap : Gap)
    (hn : 2 * (gap.1.length + (texts.flatMap (',' :: ·)).length) + 2 ≤ n) (rest : List Char) :
    skipItemsIn n close false (gap ++ (texts.flatMap (',' :: ·) ++ close :: rest)) = .ok rest := by
  induction hlaid generalizing n gap with
  | nil =>
      obtain ⟨n, rfl⟩ := Nat.exists_eq_succ_of_ne_zero (n := n) (by omega)
      rw [List.flatMap_nil, List.nil_append, skipItemsIn, nextItem_close gap.2 hclose.isSpace]
      exact mark_append gap.2 hclose.isSpace rest
  | @cons t v texts values hitem _ ih =>
      obtain ⟨n, rfl⟩ := Nat.exists_eq_succ_of_ne_zero (n := n) (by omega)
      rw [List.flatMap_cons, List.length_append, List.length_cons] at hn
      obtain ⟨after, hafter, hstep⟩ := hitem.1.skipItemsIn_step (n := n) hitem.2 hclose (by omega)
      rw [List.flatMap_cons, List.cons_append, List.cons_append, List.append_assoc,
        (hstep _ (ends_tail hclose texts)).2 gap gap.2]
      exact ih after (by omega)

/-- **The items of a list** are skipped, if their values are. -/
theorem skipItemsIn_row (hclose : IsClosing close) (gap : Gap) {texts values : List (List Char)}
    (hlaid : List.Forall₂ (fun t v => Laid close t v ∧ Skips v) texts values)
    (hn : 2 * (row gap texts).length + 2 ≤ n) (rest : List Char) :
    skipItemsIn n close true (row gap texts ++ close :: rest) = .ok rest := by
  obtain ⟨n, rfl⟩ := Nat.exists_eq_succ_of_ne_zero (n := n) (by omega)
  cases hlaid with
  | nil =>
      rw [row, skipItemsIn, nextItem_close gap.2 hclose.isSpace]
      exact mark_append gap.2 hclose.isSpace rest
  | @cons t v texts values hitem htail =>
      rw [row, List.length_append] at hn
      obtain ⟨after, hafter, hstep⟩ := hitem.1.skipItemsIn_step (n := n) hitem.2 hclose (by omega)
      rw [row, List.append_assoc, (hstep _ (ends_tail hclose texts)).1]
      exact skipItemsIn_tail hclose htail after (by omega) rest

end

/-! ### Arrays and objects -/

/-- A value starts with a character that is neither a space nor a closing mark. -/
theorem IsValue.exists_cons (h : IsValue v) :
    ∃ c more, v = c :: more ∧ isSpace c = false ∧ c ≠ arrayEnd := by
  cases h with
  | word hw =>
      simp only [words, List.mem_cons, List.not_mem_nil, or_false] at hw
      rcases hw with rfl | rfl | rfl <;> exact ⟨_, _, rfl, by decide, by decide⟩
  | number hnumber =>
      obtain ⟨c, row, rfl, hc⟩ := hnumber.exists_cons
      exact ⟨c, row, rfl, isSpace_of_numeric hc, ne_of_numeric hc (by decide) (by decide)⟩
  | string _ => exact ⟨_, _, rfl, by decide, by decide⟩
  | array gap _ => exact ⟨_, _, rfl, by decide, by decide⟩
  | object gap _ _ => exact ⟨_, _, rfl, by decide, by decide⟩

theorem laid_item {i : Item} (h : IsValue i.value) : Laid arrayEnd i.text i.value := by
  obtain ⟨c, more, hstart, hspace, hne⟩ := h.exists_cons
  have hopening (rest : List Char) : opening arrayEnd ([] ++ rest) = .ok rest := rfl
  exact Laid.of i.before noGap i.after hopening hstart hspace hne

/-- A key and its colon are skipped. -/
theorem skipKey_append {t : List Char} (h : Body t) (gap : Gap) (rest : List Char) :
    skipKey (quote t ++ (gap ++ ':' :: rest)) = .ok rest := by
  have hn : t.length < (t ++ '\x22' :: (gap ++ ':' :: rest)).length := by
    simp only [List.length_append, List.length_cons]
    omega
  obtain ⟨s, hs⟩ := stringBody_body h hn (gap ++ ':' :: rest)
  rw [quote, List.cons_append, List.append_assoc, List.singleton_append, skipKey, if_pos rfl, hs]
  exact mark_append gap.2 (by decide) rest

theorem laid_member {m : Member} (h : Body m.key) : Laid objectEnd m.text m.item.value := by
  have htext : m.text = m.before ++ ((quote m.key ++ (m.between ++ [':'])) ++
      (m.item.before ++ (m.item.value ++ m.item.after))) := by
    simp only [Member.text, Item.text, List.append_assoc, List.singleton_append]
  rw [htext]
  refine Laid.of m.before m.item.before m.item.after (fun rest => ?_) rfl (by decide) (by decide)
  rw [opening, if_pos rfl, List.append_assoc, List.append_assoc, List.singleton_append]
  exact skipKey_append h m.between rest

/-- A list is skipped if its items are. -/
theorem skips_list {mark close : Char} (hclose : IsClosing close)
    (hmark : mark = '[' ∧ close = arrayEnd ∨ mark = '\x7b' ∧ close = objectEnd) (gap : Gap)
    {texts values : List (List Char)}
    (hlaid : List.Forall₂ (fun t v => Laid close t v ∧ Skips v) texts values) :
    Skips (mark :: (row gap texts ++ [close])) := by
  intro n before rest hbefore _ hn
  simp only [List.length_cons, List.length_append, List.length_nil] at hn
  obtain ⟨n, rfl⟩ := Nat.exists_eq_succ_of_ne_zero (n := n) (by omega)
  have hskip := skipItemsIn_row hclose gap (n := n) hlaid (by omega) rest
  rw [List.cons_append, List.append_assoc, List.singleton_append, skipValueIn]
  rcases hmark with ⟨rfl, rfl⟩ | ⟨rfl, rfl⟩
  · rw [skipSpace_to hbefore (by decide)]
    exact hskip
  · rw [skipSpace_to hbefore (by decide)]
    exact hskip

/-- **Every value is skipped.** -/
theorem IsValue.skips (h : IsValue v) : Skips v := by
  induction h with
  | word hw => exact skips_word hw
  | number hnumber => exact skips_number hnumber
  | string hbody => exact skips_string hbody
  | @array gap items hvalues ih =>
      have hlaid : List.Forall₂ (fun t v => Laid arrayEnd t v ∧ Skips v) (items.map Item.text)
          (items.map Item.value) := by
        rw [List.forall₂_map_left_iff, List.forall₂_map_right_iff, List.forall₂_same]
        intro i hi
        exact ⟨laid_item (hvalues i hi), ih i hi⟩
      exact skips_list (Or.inl rfl) (Or.inl ⟨rfl, rfl⟩) gap hlaid
  | @object gap members hkeys hvalues ih =>
      have hlaid : List.Forall₂ (fun t v => Laid objectEnd t v ∧ Skips v) (members.map Member.text)
          (members.map fun m => m.item.value) := by
        rw [List.forall₂_map_left_iff, List.forall₂_map_right_iff, List.forall₂_same]
        intro m hm
        exact ⟨laid_member (hkeys m hm), ih m hm⟩
      exact skips_list (Or.inr rfl) (Or.inr ⟨rfl, rfl⟩) gap hlaid

/-- The text behind a value of an item. -/
theorem IsValue.skipValue (h : IsValue v) (gap : Gap) (hrest : Ends rest) :
    skipValue (gap ++ (v ++ rest)) = .ok rest := by
  refine h.skips _ gap rest gap.2 hrest ?_
  simp only [List.length_append]
  omega

end RateMonotonic.Json
