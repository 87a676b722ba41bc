/-
**Control sequences**: the parts of a text that a terminal obeys and does not show, and a text
without them.

An escape character begins a sequence, whatever stands before it.  What follows tells its kind: a
control sequence runs to its final character, a control string to its terminator.  Blanks such as
the newline are shown even inside a sequence, strings excepted.  Such a blank holds the sequence
up: the characters behind it are text, until a control character takes the sequence up again.

Main definitions:
* `ControlSequence.Progress` — how far a terminal has come in a sequence;
* `ControlSequence.step` — what one character does to it, and whether the character is shown;
* `ControlSequence.removed` — a text without its sequences and other controls.

Main results:
* `ControlSequence.removed_eq_self` — a text without controls is left as it is;
* `ControlSequence.isShown_of_mem_removed` — what is left is shown as text;
* `ControlSequence.removed_sublist` — nothing is added or moved.
-/

set_option relaxedAutoImplicit false
set_option autoImplicit false

namespace RateMonotonic.ControlSequence

/-! ### Characters -/

/-- Whether a code point lies in a range, its ends included. -/
def within (low high : Nat) (c : Char) : Bool := decide (low ≤ c.toNat) && decide (c.toNat ≤ high)

/-- The controls that move to another place on the page. -/
def isBlankControl (c : Char) : Bool := c = '\t' || c = '\n' || c = '\x0c' || c = '\r'

/-- Whether a character outside of sequences is shown: all but the controls below the space and the
delete character. -/
def isShown (c : Char) : Bool := isBlankControl c || decide (0x20 ≤ c.toNat) && !(c = '\x7f')

/-- Whether a byte of the character in UTF-8 is the one that ends a control string. -/
def hasTerminator (c : Char) : Bool := (String.utf8EncodeChar c).contains 0x9C

/-! ### Sequences -/

/-- What a terminal is reading. -/
inductive Part where
  /-- Text, outside of any sequence. -/
  | text
  /-- What follows the escape character. -/
  | escape
  /-- An escape sequence behind its first intermediate character. -/
  | escapeIntermediate
  /-- A control sequence up to its final character. -/
  | control
  /-- The first character of a device control. -/
  | device
  /-- The parameters of a device control. -/
  | deviceParameter
  /-- The intermediate characters of a device control. -/
  | deviceIntermediate
  /-- A control string up to its terminator. -/
  | string
  /-- A command to the operating system up to a bell. -/
  | command
deriving DecidableEq, Repr

/-- The part that a character begins wherever it stands: the escape character begins a sequence, and
the characters for cancelling and substitution end one. -/
def interruption? (c : Char) : Option Part :=
  if c = '\x1b' then some .escape
  else if c = '\x18' || c = '\x1a' then some .text
  else none

/-- The part that follows the first character of an escape sequence. -/
def opened (c : Char) : Part :=
  if c = '[' then .control
  else if c = ']' then .command
  else if c = 'P' then .device
  else if c = 'X' || c = '^' || c = '_' then .string
  else .text

/-- The part after a character that is not shown. -/
def Part.next : Part → Char → Part
  | .text, _ => .text
  | .escape, c =>
      if within 0x20 0x2F c then .escapeIntermediate
      else if within 0x30 0x7E c then opened c
      else .escape
  | .escapeIntermediate, c => if within 0x30 0x7E c then .text else .escapeIntermediate
  | .control, c => if within 0x40 0x7E c then .text else .control
  | .device, c =>
      if within 0x20 0x2F c then .deviceIntermediate
      else if within 0x30 0x3F c then .deviceParameter
      else if within 0x40 0x7E c then .string
      else .device
  | .deviceParameter, c =>
      if within 0x20 0x2F c then .deviceIntermediate
      else if within 0x3C 0x7E c then .string
      else .deviceParameter
  | .deviceIntermediate, c => if within 0x30 0x7E c then .string else .deviceIntermediate
  | .string, c => if hasTerminator c then .text else .string
  | .command, c => if c = '\x07' then .text else .command

/-- Whether blanks are shown inside the part. -/
def Part.showsBlanks : Part → Bool
  | .text | .escape | .escapeIntermediate | .control => true
  | .device | .deviceParameter | .deviceIntermediate | .string | .command => false

/-- How far a terminal has come in a sequence. -/
structure Progress where
  /-- The part that is read or held up. -/
  part : Part
  /-- Whether a blank holds the part up. -/
  held : Bool
deriving DecidableEq, Repr

/-- Outside of any sequence. -/
def Progress.start : Progress := ⟨.text, false⟩

/-- Whether the next character is taken as text. -/
def Progress.isText (p : Progress) : Bool := p.held || p.part = .text

/-- What a character does to the progress, and whether it is shown. -/
def step (p : Progress) (c : Char) : Progress × Bool :=
  match interruption? c with
  | some part => (⟨part, false⟩, false)
  | none =>
      if p.isText then
        if isShown c then
          -- Beyond ASCII a shown character ends the part that was held up.
          if c.toNat < 0x80 then (⟨p.part, true⟩, true) else (⟨.text, true⟩, true)
        else (⟨p.part, false⟩, false)
      else if isBlankControl c && p.part.showsBlanks then (⟨p.part, true⟩, true)
      else (⟨p.part.next c, false⟩, false)

/-- The shown characters of a text, from some progress on. -/
def shown : Progress → List Char → List Char
  | _, [] => []
  | p, c :: rest =>
      match step p c with
      | (next, true) => c :: shown next rest
      | (next, false) => shown next rest

/-- A text without its sequences and other controls. -/
def removed (s : String) : String := String.ofList (shown .start s.toList)

/-! ### What is left of a text -/

theorem shown_sublist (p : Progress) (cs : List Char) : (shown p cs).Sublist cs := by
  induction cs generalizing p with
  | nil => exact List.Sublist.refl _
  | cons c rest ih =>
      unfold shown
      split
      · exact (ih _).cons_cons c
      · exact (ih _).cons c

/-- Only a character that text shows is ever shown. -/
theorem isShown_of_step {p next : Progress} {c : Char} (h : step p c = (next, true)) :
    isShown c = true := by
  unfold step at h
  split at h
  · simp at h
  · split at h
    · split at h
      · assumption
      · simp at h
    · split at h
      · next hb => simp only [Bool.and_eq_true] at hb; simp [isShown, hb.1]
      · simp at h

theorem isShown_of_mem_shown {p : Progress} {cs : List Char} {c : Char} (h : c ∈ shown p cs) :
    isShown c = true := by
  induction cs generalizing p with
  | nil => simp [shown] at h
  | cons d rest ih =>
      unfold shown at h
      split at h
      · next hstep =>
          rcases List.mem_cons.1 h with rfl | h
          · exact isShown_of_step hstep
          · exact ih h
      · exact ih h

/-- No shown character begins or ends a sequence. -/
theorem interruption?_of_isShown {c : Char} (h : isShown c = true) : interruption? c = none := by
  unfold interruption?
  split
  · next hc => subst hc; exact absurd h (by decide)
  · split
    · next hc =>
        rcases (by simpa using hc : c = '\x18' ∨ c = '\x1a') with rfl | rfl
        · exact absurd h (by decide)
        · exact absurd h (by decide)
    · rfl

/-- A shown character outside of sequences is shown, and text goes on behind it. -/
theorem step_text {p : Progress} {c : Char} (hp : p.part = .text) (h : isShown c = true) :
    ∃ next, step p c = (next, true) ∧ next.part = .text := by
  unfold step
  rw [interruption?_of_isShown h]
  simp only [Progress.isText, hp, h, decide_true, Bool.or_true, if_true]
  split
  · exact ⟨_, rfl, rfl⟩
  · exact ⟨_, rfl, rfl⟩

theorem shown_eq_self {p : Progress} {cs : List Char} (hp : p.part = .text)
    (h : ∀ c ∈ cs, isShown c = true) : shown p cs = cs := by
  induction cs generalizing p with
  | nil => rfl
  | cons c rest ih =>
      obtain ⟨next, hstep, hnext⟩ := step_text hp (h c List.mem_cons_self)
      unfold shown
      rw [hstep]
      exact congrArg (c :: ·) (ih hnext fun d hd => h d (List.mem_cons_of_mem c hd))

/-- **A text without controls is left as it is.** -/
theorem removed_eq_self {s : String} (h : ∀ c ∈ s.toList, isShown c = true) : removed s = s := by
  simp [removed, shown_eq_self (p := .start) rfl h]

/-- **What is left is shown as text**, so no sequence is left in it. -/
theorem isShown_of_mem_removed {s : String} {c : Char} (h : c ∈ (removed s).toList) :
    isShown c = true := by
  simp only [removed, String.toList_ofList] at h
  exact isShown_of_mem_shown h

/-- **Nothing is added or moved.** -/
theorem removed_sublist (s : String) : ((removed s).toList).Sublist s.toList := by
  simpa [removed] using shown_sublist .start s.toList

/-- Removing the sequences again finds nothing. -/
theorem removed_removed (s : String) : removed (removed s) = removed s :=
  removed_eq_self fun _ h => isShown_of_mem_removed h

end RateMonotonic.ControlSequence
