/-
**Blank characters**: the characters with the Unicode property `White_Space`, and cutting them off
the ends of a text.

Main definitions:
* `Blank.isBlank` — the property, as a table of its ranges;
* `Blank.trimLeft`, `Blank.trimRight`, `Blank.trim` — a text without its blank ends.

Main results:
* `Blank.isBlank_of_isWhitespace` — every blank that core knows is in the table;
* `Blank.trim_trim` — a second cut finds nothing.
-/

set_option relaxedAutoImplicit false
set_option autoImplicit false

namespace RateMonotonic.Blank

/-- The ranges of code points with the property `White_Space`. -/
def ranges : List (Nat × Nat) :=
  [(0x9, 0xD), (0x20, 0x20), (0x85, 0x85), (0xA0, 0xA0), (0x1680, 0x1680), (0x2000, 0x200A),
    (0x2028, 0x2029), (0x202F, 0x202F), (0x205F, 0x205F), (0x3000, 0x3000)]

/-- Whether a character has the property `White_Space`. -/
def isBlank (c : Char) : Bool :=
  ranges.any fun r => decide (r.1 ≤ c.toNat) && decide (c.toNat ≤ r.2)

/-- A text from its first character that is not blank. -/
def trimLeft (cs : List Char) : List Char := cs.dropWhile isBlank

/-- A text up to its last character that is not blank. -/
def trimRight (cs : List Char) : List Char := (cs.reverse.dropWhile isBlank).reverse

/-- A text without its blank ends. -/
def trim (cs : List Char) : List Char := trimRight (trimLeft cs)

/-! ### The table and the cuts -/

theorem isBlank_of_isWhitespace {c : Char} (h : c.isWhitespace = true) : isBlank c = true := by
  simp only [Char.isWhitespace, Bool.or_eq_true, decide_eq_true_eq] at h
  rcases h with ((h | h) | h) | h <;> subst h <;> decide

theorem trimLeft_trimLeft (cs : List Char) : trimLeft (trimLeft cs) = trimLeft cs := by
  induction cs with
  | nil => rfl
  | cons c rest ih =>
      by_cases h : isBlank c
      · simpa [trimLeft, h] using ih
      · simp [trimLeft, h]

theorem trimRight_trimRight (cs : List Char) : trimRight (trimRight cs) = trimRight cs := by
  simpa [trimRight, trimLeft] using congrArg List.reverse (trimLeft_trimLeft cs.reverse)

/-- A character that is not blank stays in front when the right end is cut. -/
theorem trimRight_cons {c : Char} (hc : isBlank c = false) (rest : List Char) :
    trimRight (c :: rest) = c :: trimRight rest := by
  simp only [trimRight, List.reverse_cons]
  rw [List.dropWhile_append]
  split
  · next hnil =>
      simp only [List.isEmpty_iff] at hnil
      simp [hc, hnil]
  · simp

/-- A blank at the right end is cut. -/
theorem trim_concat {c : Char} (hc : isBlank c = true) (cs : List Char) :
    trim (cs ++ [c]) = trim cs := by
  have hright : ∀ l : List Char, trimRight (l ++ [c]) = trimRight l := by
    intro l
    simp [trimRight, hc]
  simp only [trim, trimLeft]
  rw [List.dropWhile_append]
  split
  · next hnil =>
      rw [List.isEmpty_iff] at hnil
      simp [hnil, hc, trimRight]
  · exact hright _

/-- What starts with a character that is not blank still does after its right end is cut. -/
theorem trimLeft_trimRight_of_trimLeft {cs : List Char} (h : trimLeft cs = cs) :
    trimLeft (trimRight cs) = trimRight cs := by
  cases cs with
  | nil => rfl
  | cons c rest =>
      cases hc : isBlank c with
      | true =>
          have hlen : (trimLeft rest).length ≤ rest.length :=
            (List.dropWhile_sublist isBlank).length_le
          have := congrArg List.length h
          simp only [trimLeft, hc, List.dropWhile_cons_of_pos, List.length_cons] at this
          simp only [trimLeft] at hlen
          omega
      | false =>
          rw [trimRight_cons hc]
          simp [trimLeft, hc]

/-- The first character that is not blank, if there is one, is the first one after a cut. -/
theorem trim_of_trimLeft {cs rest : List Char} {c : Char} (h : trimLeft cs = c :: rest) :
    trim cs = c :: trimRight rest := by
  have hc : isBlank c = false := by
    have hfront := List.head?_dropWhile_not isBlank cs
    rw [show cs.dropWhile isBlank = c :: rest from h] at hfront
    simpa using hfront
  rw [trim, h, trimRight_cons hc]

/-- **Cutting blank ends twice is cutting them once.** -/
theorem trim_trim (cs : List Char) : trim (trim cs) = trim cs := by
  unfold trim
  rw [trimLeft_trimRight_of_trimLeft (trimLeft_trimLeft cs), trimRight_trimRight]

end RateMonotonic.Blank
