/-
**Reading the texts of JSON into types.**

A reader for a type reads a text wherever it stands: with spaces in front of it, and with anything
behind it that may follow a value.  Numbers, strings and variants are read from every text of their
value.  A record is read from an object with its members in any order: every member with the key of
a field updates the draft, a key that names no field is skipped with its value, and at the end the
draft is finished.

Main definitions:
* `Json.Reads` — a reader reads a text as a value, wherever it stands;
* `Json.MemberRead`, `Json.MembersRead` — what the members of an object do to a draft.

Main results:
* `Json.reads_integer`, `Json.reads_natural` — **written numbers are read back exactly**;
* `Json.reads_string`, `Json.reads_variant` — so are strings and variants, in every spelling;
* `Json.MemberRead.membersIn_step`, `Json.membersIn_row` — one member, and all of them;
* `Json.reads_record` — **an object is read as the record of its members.**
-/

import RateMonotonic.Proofs.JsonSkipping

set_option relaxedAutoImplicit false
set_option autoImplicit false

namespace RateMonotonic.Json

open Decimal (digits isDigit)

variable {α β σ : Type} {cs rest v : List Char} {n : ℕ}

/-- **A reader reads a text as a value**, wherever it stands. -/
def Reads (read : Reader α) (v : List Char) (a : α) : Prop :=
  ∀ gap rest, Spaces gap → Ends rest → read (gap ++ (v ++ rest)) = .ok (a, rest)

theorem Reads.map {read : Reader α} {a : α} (h : Reads read v a) (f : α → β) :
    Reads (read.map f) v (f a) := by
  intro gap rest hgap hrest
  rw [Reader.map, h gap rest hgap hrest]
  rfl

theorem Reads.update {read : Reader α} {a : α} (h : Reads read v a) (set : α → σ → σ) :
    Reads (read.update set) v (set a) := by
  intro gap rest hgap hrest
  rw [Reader.update, h gap rest hgap hrest]
  rfl

/-- A field of a record is read as an update of the draft. -/
theorem Reads.updateField {read : Reader α} {a : α} (h : Reads read v a) (name : String)
    (set : α → σ → σ) : Reads (RecordField.mk name (read.update set)).read v (set a) :=
  h.update set

/-! ### Numbers -/

/-- One more digit of a number. -/
def shift (s : ℕ) (c : Char) : ℕ := 10 * s + (c.toNat - 48)

theorem value_eq_foldl (row : List Char) : Decimal.value row = row.foldl shift 0 := rfl

theorem le_foldl_shift (row : List Char) (s : ℕ) : s ≤ row.foldl shift s := by
  induction row generalizing s with
  | nil => exact le_rfl
  | cons c row ih =>
      have hstep : s ≤ shift s c := by
        unfold shift
        omega
      exact hstep.trans (ih (shift s c))

/-- All digits of a number of 64 bits are taken. -/
theorem significand_append {row : List Char} (h : ∀ c ∈ row, isDigit c = true)
    (hrest : Stops isDigit rest) {s : ℕ} (hlt : row.foldl shift s < 2 ^ 64) :
    significand s (row ++ rest) = (row.foldl shift s, row.length, rest) := by
  induction row generalizing s with
  | nil =>
      cases rest with
      | nil => rfl
      | cons c rest => simp [significand, hrest c rfl]
  | cons c row ih =>
      have hc : isDigit c = true := h c List.mem_cons_self
      have hfits : 10 * s + (c.toNat - 48) < 2 ^ 64 := (le_foldl_shift row _).trans_lt hlt
      have hrow := ih (fun d hd => h d (List.mem_cons_of_mem c hd)) (s := shift s c) hlt
      rw [shift] at hrow
      rw [List.cons_append, significand, if_pos (by simp [hc, hfits]), hrow]
      rfl

theorem wholeEnd_of_ends (hrest : Ends rest) (negative : Bool) (s : ℕ) :
    wholeEnd negative s 0 rest = .ok (integer? negative s, rest) := by
  cases rest with
  | nil => rfl
  | cons c rest =>
      have hpoint : Stops (· == '.') (c :: rest) := hrest.stops (by decide)
      have hmark : Stops isExponentMark (c :: rest) := hrest.stops (by decide)
      have hc : c ≠ '.' := by simpa using hpoint c rfl
      simp [wholeEnd, hc, hmark c rfl]

theorem wholePart_digits (hn : n < 2 ^ 64) (hrest : Ends rest) (negative : Bool) :
    wholePart negative (digits n ++ rest) = .ok (integer? negative n, rest) := by
  have hdigit : Stops isDigit rest := hrest.stops (by decide)
  rcases Nat.eq_zero_or_pos n with rfl | hpos
  · have hzero : digits 0 = ['0'] := by rw [digits]; rfl
    have hnext : ¬(rest.head?.any isDigit) = true := by
      cases rest with
      | nil => simp
      | cons c rest => simp [hdigit c rfl]
    rw [hzero, List.singleton_append, wholePart, if_pos rfl, if_neg hnext,
      wholeEnd_of_ends hrest]
  · have hrow : ∀ c ∈ digits n, isDigit c = true := fun c hc => Decimal.isDigit_of_mem_digits hc
    have hvalue : (digits n).foldl shift 0 = n := by rw [← value_eq_foldl, Decimal.value_digits]
    have hsignificand := significand_append hrow hdigit (s := 0) (by rw [hvalue]; exact hn)
    rw [hvalue] at hsignificand
    have htake : (rest.takeWhile isDigit).length = 0 := by
      cases rest with
      | nil => rfl
      | cons c rest => simp [hdigit c rfl]
    have hnone : ∀ c ∈ ([] : List Char), isDigit c = true := List.forall_mem_nil _
    have hdrop : rest.dropWhile isDigit = rest := dropWhile_append_of_stops hnone hdigit
    obtain ⟨c, row, heq, hc⟩ := exists_digits_cons hpos
    have hfirst : isDigit c = true := hrow c (heq ▸ List.mem_cons_self)
    rw [heq, List.cons_append] at hsignificand ⊢
    simp only [wholePart, if_neg hc, hfirst, if_true, hsignificand, htake, hdrop,
      wholeEnd_of_ends hrest]

/-- **A written number of 64 bits**, with or without a sign, is read back. -/
theorem number_integerChars {n : ℤ} (hlow : -2 ^ 63 ≤ n) (hhigh : n < 2 ^ 64) (hrest : Ends rest) :
    number (integerChars n ++ rest) = .ok (some n, rest) := by
  unfold integerChars
  split
  · have hs : ¬(n.natAbs = 0 ∨ 2 ^ 63 < n.natAbs) := by omega
    have hvalue : -(n.natAbs : ℤ) = n := by omega
    rw [List.cons_append, number, if_pos rfl, wholePart_digits (by omega) hrest, integer?, if_pos rfl,
      if_neg hs, hvalue]
  · have hvalue : (n.natAbs : ℤ) = n := by omega
    have hread := wholePart_digits (n := n.natAbs) (by omega) hrest false
    rw [integer?, if_neg (by simp), hvalue] at hread
    obtain ⟨c, row, heq⟩ := List.exists_cons_of_ne_nil (Decimal.digits_ne_nil n.natAbs)
    have hdigit : isDigit c = true := Decimal.isDigit_of_mem_digits (heq ▸ List.mem_cons_self)
    have hc : c ≠ '-' := by
      rintro rfl
      revert hdigit
      decide
    rw [heq, List.cons_append] at hread ⊢
    rw [number, if_neg hc, hread]

theorem reads_numeric {n : ℤ} (hlow : -2 ^ 63 ≤ n) (hhigh : n < 2 ^ 64) :
    Reads numeric (integerChars n) (some n) := by
  intro gap rest hgap hrest
  have hread := number_integerChars hlow hhigh hrest
  obtain ⟨c, row, heq, hc⟩ := (isNumber_integerChars n).exists_cons
  rw [heq, List.cons_append] at hread ⊢
  rw [numeric, skipSpace_to hgap (isSpace_of_numeric hc)]
  simp only [show (c = '-' || isDigit c) = true by simpa using hc, if_true, hread]

/-- **An integer** in its range. -/
theorem reads_integer {low high n : ℤ} (h : Spells (.number n) v) (hlow : low ≤ n) (hhigh : n ≤ high)
    (hmin : -2 ^ 63 ≤ low) (hmax : high < 2 ^ 64) : Reads (integer low high) v n := by
  cases h
  intro gap rest hgap hrest
  rw [integer, reads_numeric (hmin.trans hlow) (hhigh.trans_lt hmax) gap rest hgap hrest]
  simp [bind, Except.bind, pure, Except.pure, hlow, hhigh]

/-- **A natural number** below its limit. -/
theorem reads_natural {limit : ℕ} (h : Spells (.nat n) v) (hn : n < limit)
    (hlimit : limit ≤ 2 ^ 64) : Reads (natural limit) v n := by
  intro gap rest hgap hrest
  have hread : Reads (integer 0 (limit - 1)) v n :=
    reads_integer h (by omega) (by omega) (by omega) (by omega)
  rw [natural, hread gap rest hgap hrest]
  rfl

/-! ### Strings and variants -/

theorem openString_spelling {t s : List Char} (h : Spelling t s) (rest : List Char) :
    openString (t ++ '\x22' :: rest) = .ok (String.ofList s, rest) := by
  have hn : t.length < (t ++ '\x22' :: rest).length := by
    simp only [List.length_append, List.length_cons]
    omega
  rw [openString, stringBody_spelling h hn]
  rfl

theorem quote_append (t rest : List Char) : quote t ++ rest = '\x22' :: (t ++ '\x22' :: rest) := by
  simp [quote]

/-- **A string**, in every spelling. -/
theorem reads_string {s : String} (h : Spells (.string s) v) : Reads string v s := by
  cases h with
  | string hspelling =>
      intro gap rest hgap _
      rw [quote_append, string, skipSpace_to hgap (by decide)]
      simp only [if_true, openString_spelling hspelling, String.ofList_toList]

/-- **A variant** that its name says all about. -/
theorem reads_variant {variants : List (String × Variant α)} {name : String} {a : α}
    (h : Spells (.string name) v) (hnamed : named variants name = .ok (.plain a)) :
    Reads (variant variants) v a := by
  cases h with
  | string hspelling =>
      intro gap rest hgap _
      rw [quote_append, variant, skipSpace_to hgap (by decide)]
      simp only [if_true, openString_spelling hspelling, String.ofList_toList, bind, Except.bind,
        hnamed, pure, Except.pure]

/-! ### Records -/

/-- What a member of an object does to the keys seen so far and to the draft. -/
inductive MemberRead (fields : List (RecordField σ)) (unknown : UnknownKeys) (seen : List String)
    (draft : σ) (m : Member) : List String → σ → Prop
  | known {name : String} {field : RecordField σ} {set : σ → σ} : Spelling m.key name.toList →
      fields.find? (·.name == name) = some field → name ∉ seen → Reads field.read m.item.value set →
      MemberRead fields unknown seen draft m (name :: seen) (set draft)
  | skipped {name : String} : unknown = .skipped → Spelling m.key name.toList →
      fields.find? (·.name == name) = none → IsValue m.item.value →
      MemberRead fields unknown seen draft m seen draft

/-- What the members of an object do to the draft, one after the other. -/
inductive MembersRead (fields : List (RecordField σ)) (unknown : UnknownKeys) :
    List String → σ → List Member → σ → Prop
  | nil (seen : List String) (draft : σ) : MembersRead fields unknown seen draft [] draft
  | cons {seen seen' : List String} {draft draft' done : σ} {m : Member} {members : List Member} :
      MemberRead fields unknown seen draft m seen' draft' →
      MembersRead fields unknown seen' draft' members done →
      MembersRead fields unknown seen draft (m :: members) done

variable {fields : List (RecordField σ)} {unknown : UnknownKeys} {seen seen' : List String}
  {draft draft' done : σ} {m : Member} {members : List Member}

theorem key_append {name : String} {t : List Char} (h : Spelling t name.toList) (rest : List Char) :
    key (quote t ++ rest) = .ok (name, rest) := by
  rw [quote_append, key, if_pos rfl, openString_spelling h, String.ofList_toList]

/-- A member behind the spaces before its key. -/
theorem text_append (m : Member) (tail : List Char) :
    m.text ++ tail = m.before ++ (quote m.key ++ (m.between ++ ':' :: (m.item.before ++
      (m.item.value ++ (m.item.after ++ tail))))) := by
  simp only [Member.text, Item.text, List.append_assoc, List.cons_append]

/-- **One member takes one step**, once its key has been found. -/
theorem MemberRead.membersIn_eq (h : MemberRead fields unknown seen draft m seen' draft')
    {tail : List Char} (htail : Ends tail) {first : Bool}
    (hnext : nextItem objectEnd first cs = .ok (some (quote m.key ++ (m.between ++ ':' ::
      (m.item.before ++ (m.item.value ++ (m.item.after ++ tail))))))) :
    membersIn fields unknown (n + 1) first seen draft cs =
      membersIn fields unknown n false seen' draft' (m.item.after ++ tail) := by
  have hend : Ends (m.item.after ++ tail) := htail.append m.item.after.2
  cases h with
  | @known name field set hkey hfield hseen hread =>
      have hnew : seen.contains name = false := by simpa using hseen
      simp only [membersIn, hnext, bind, Except.bind, key_append hkey, hfield, hnew,
        Bool.false_eq_true, if_false, mark_append m.between.2 (by decide : isSpace ':' = false),
        hread _ _ m.item.before.2 hend]
  | skipped hunknown hkey hfield hvalue =>
      simp only [membersIn, hnext, bind, Except.bind, key_append hkey, hfield, hunknown,
        mark_append m.between.2 (by decide : isSpace ':' = false),
        hvalue.skipValue m.item.before hend]

/-- One member, be it the first one or behind a comma. -/
theorem MemberRead.membersIn_step (h : MemberRead fields unknown seen draft m seen' draft')
    (n : ℕ) {tail : List Char} (htail : Ends tail) :
    membersIn fields unknown (n + 1) true seen draft (m.text ++ tail) =
        membersIn fields unknown n false seen' draft' (m.item.after ++ tail) ∧
      ∀ gap : Gap, membersIn fields unknown (n + 1) false seen draft
          (gap ++ ',' :: (m.text ++ tail)) =
        membersIn fields unknown n false seen' draft' (m.item.after ++ tail) := by
  have hspace : isSpace '\x22' = false := by decide
  have hclose : '\x22' ≠ objectEnd := by decide
  have hcomma : ',' ≠ objectEnd := by decide
  rw [text_append, quote_append]
  refine ⟨h.membersIn_eq htail ?_, fun gap => h.membersIn_eq htail ?_⟩
  · rw [nextItem_first m.before.2 hspace hclose, quote_append]
  · rw [nextItem_comma gap.2 m.before.2 hspace hcomma hclose, quote_append]

/-- The members behind a member.  The spaces in front of the closing mark are left. -/
theorem membersIn_tail (h : MembersRead fields unknown seen draft members done) (gap : Gap)
    (hn : members.length < n) (rest : List Char) :
    ∃ after : Gap, membersIn fields unknown n false seen draft
      (gap ++ ((members.map Member.text).flatMap (',' :: ·) ++ objectEnd :: rest)) =
        .ok (done, after ++ objectEnd :: rest) := by
  induction h generalizing n gap with
  | nil seen draft =>
      obtain ⟨n, rfl⟩ := Nat.exists_eq_succ_of_ne_zero (Nat.ne_zero_of_lt hn)
      refine ⟨gap, ?_⟩
      rw [List.map_nil, List.flatMap_nil, List.nil_append, membersIn,
        nextItem_close gap.2 (by decide)]
      rfl
  | @cons seen seen' draft draft' done m members hm _ ih =>
      obtain ⟨n, rfl⟩ := Nat.exists_eq_succ_of_ne_zero (Nat.ne_zero_of_lt hn)
      have htail : Ends ((members.map Member.text).flatMap (',' :: ·) ++ objectEnd :: rest) :=
        ends_tail (Or.inr rfl) _
      rw [List.map_cons, List.flatMap_cons, List.cons_append, List.cons_append, List.append_assoc,
        (hm.membersIn_step n htail).2 gap]
      exact ih m.item.after (Nat.lt_of_succ_lt_succ hn)

/-- **The members of an object.** -/
theorem membersIn_row (h : MembersRead fields unknown seen draft members done) (gap : Gap)
    (hn : members.length < n) (rest : List Char) :
    ∃ after : Gap, membersIn fields unknown n true seen draft
      (row gap (members.map Member.text) ++ objectEnd :: rest) =
        .ok (done, after ++ objectEnd :: rest) := by
  obtain ⟨n, rfl⟩ := Nat.exists_eq_succ_of_ne_zero (Nat.ne_zero_of_lt hn)
  cases h with
  | nil seen draft =>
      refine ⟨gap, ?_⟩
      rw [List.map_nil, row, membersIn, nextItem_close gap.2 (by decide)]
      rfl
  | @cons seen seen' draft draft' done m members hm hmembers =>
      have htail : Ends ((members.map Member.text).flatMap (',' :: ·) ++ objectEnd :: rest) :=
        ends_tail (Or.inr rfl) _
      rw [List.map_cons, row, List.append_assoc, (hm.membersIn_step n htail).1]
      exact membersIn_tail hmembers m.item.after (Nat.lt_of_succ_lt_succ hn) rest

theorem length_le_row (gap : Gap) (members : List Member) :
    members.length ≤ (row gap (members.map Member.text)).length := by
  have htail (members : List Member) :
      members.length ≤ ((members.map Member.text).flatMap (',' :: ·)).length := by
    induction members with
    | nil => exact Nat.zero_le _
    | cons m members ih =>
        simp only [List.map_cons, List.flatMap_cons, List.length_append, List.length_cons]
        omega
  cases members with
  | nil => exact Nat.zero_le _
  | cons m members =>
      have hquote : 0 < m.text.length := by
        simp only [Member.text, quote, List.length_append, List.length_cons]
        omega
      have := htail members
      simp only [List.map_cons, row, List.length_append, List.length_cons]
      omega

/-- **An object is read as the record of its members.** -/
theorem reads_record {start : σ} {finish : σ → Option α} {a : α}
    (h : MembersRead fields unknown [] start members done) (hfinish : finish done = some a)
    (gap : Gap) : Reads (record fields unknown start finish) (objectText gap members) a := by
  intro before rest hbefore _
  have hn : members.length < (row gap (members.map Member.text) ++ '\x7d' :: rest).length + 1 := by
    have := length_le_row gap members
    simp only [List.length_append]
    omega
  obtain ⟨after, hread⟩ := membersIn_row h gap hn rest
  rw [objectEnd] at hread
  have hclose : mark objectEnd (after ++ '\x7d' :: rest) = .ok rest :=
    mark_append after.2 (by decide) rest
  rw [objectText, List.cons_append, List.append_assoc, List.singleton_append, record,
    skipSpace_to hbefore (by decide)]
  simp only [if_neg (by decide : '\x7b' ≠ '['), if_true, bind, Except.bind, hread, complete, hfinish,
    hclose, pure, Except.pure]

end RateMonotonic.Json
