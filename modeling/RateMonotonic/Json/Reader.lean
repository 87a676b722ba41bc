/-
**Reading JSON**, one character after the other: the marks, words and strings.

A reader takes the text that remains and gives a value together with the text behind it, or the
first fault that it meets.  A fault says whether the text ends too early, is no JSON, or is JSON of
another type than expected.

Main definitions:
* `Json.Fault`, `Json.Reader` — faults and readers;
* `Json.skipSpace`, `Json.word` — what stands around values;
* `Json.strict`, `Json.loose` — what a backslash stands for in a string that matters, and in one
  that is skipped;
* `Json.stringBody` — the characters of a string behind its opening quote;
* `Json.nextItem`, `Json.closing` — the marks between the items of a list, and at its end.

Main results:
* `Json.word_append` — a word is read from the text that starts with it.
-/

set_option relaxedAutoImplicit false
set_option autoImplicit false

namespace RateMonotonic.Json

/-- Why a text cannot be read. -/
inductive Fault where
  /-- It ends too early. -/
  | truncated
  /-- It is no JSON. -/
  | malformed
  /-- It is JSON, but a value has another type than expected or is out of range. -/
  | mistyped
deriving DecidableEq, Repr

/-- From the text that remains to a value and the text behind it. -/
abbrev Reader (α : Type) := List Char → Except Fault (α × List Char)

/-- The four characters that may stand around values. -/
def isSpace (c : Char) : Bool := c = ' ' || c = '\t' || c = '\n' || c = '\r'

/-- The text from the first character that is no space. -/
def skipSpace (cs : List Char) : List Char := cs.dropWhile isSpace

/-- The text behind a word. -/
def word : List Char → List Char → Except Fault (List Char)
  | [], cs => .ok cs
  | _ :: _, [] => .error .truncated
  | w :: ws, c :: cs => if c = w then word ws cs else .error .malformed

theorem word_append (w cs : List Char) : word w (w ++ cs) = .ok cs := by
  induction w with
  | nil => rfl
  | cons c rest ih => simpa [word] using ih

/-! ### Strings -/

/-- The value of a hexadecimal digit. -/
def hexDigit? (c : Char) : Option Nat :=
  if '0' ≤ c ∧ c ≤ '9' then some (c.toNat - 48)
  else if 'a' ≤ c ∧ c ≤ 'f' then some (c.toNat - 87)
  else if 'A' ≤ c ∧ c ≤ 'F' then some (c.toNat - 55)
  else none

/-- The number of bytes of a text in UTF-8. -/
def byteCount (cs : List Char) : Nat := cs.foldl (fun n c => n + c.utf8Size) 0

/-- A unit of four hexadecimal digits.  The text ends too early if fewer than four bytes remain. -/
def hexUnit : Reader Nat := fun cs =>
  -- Bytes are counted, not characters: one character of two bytes may stand for two digits.
  if byteCount (cs.take 4) < 4 then .error .truncated
  else
    match (cs.take 4).mapM hexDigit? with
    | some row => .ok (row.foldl (16 * · + ·) 0, cs.drop 4)
    | none => .error .malformed

/-- What a letter behind a backslash stands for. -/
def escaped? (c : Char) : Option Char :=
  if c = '\x22' ∨ c = '\\' ∨ c = '/' then some c
  else if c = 'b' then some '\x08'
  else if c = 'f' then some '\x0c'
  else if c = 'n' then some '\n'
  else if c = 'r' then some '\r'
  else if c = 't' then some '\t'
  else none

/-- A unit that comes first in a pair for one character. -/
def isLeading (unit : Nat) : Bool := decide (0xD800 ≤ unit) && decide (unit ≤ 0xDBFF)

/-- A unit that comes second in a pair for one character. -/
def isTrailing (unit : Nat) : Bool := decide (0xDC00 ≤ unit) && decide (unit ≤ 0xDFFF)

/-- The character of one unit, or of a pair of units, behind a backslash and a `u`. -/
def codePoint : Reader Char := fun cs => do
  let (unit, rest) ← hexUnit cs
  if isTrailing unit then throw .malformed
  else if isLeading unit then
    let (second, rest) ← hexUnit (← word ['\\', 'u'] rest)
    if isTrailing second then
      return (Char.ofNat (0x10000 + (unit - 0xD800) * 0x400 + (second - 0xDC00)), rest)
    else throw .malformed
  else return (Char.ofNat unit, rest)

/-- What stands behind a backslash, with a rule for units. -/
def escape (units : Reader Char) : Reader Char
  | [] => .error .truncated
  | c :: rest =>
      if c = 'u' then units rest
      else
        match escaped? c with
        | some d => .ok (d, rest)
        | none => .error .malformed

/-- What stands behind a backslash in a string that matters: units must make up characters. -/
def strict : Reader Char := escape codePoint

/-- What stands behind a backslash in a string that is skipped: any unit will do. -/
def loose : Reader Char := escape fun cs => do
  let (unit, rest) ← hexUnit cs
  return (Char.ofNat unit, rest)

/-- The characters of a string up to its closing quote, at most this many. -/
def stringBody (backslash : Reader Char) : Nat → Reader (List Char)
  | 0, _ => .error .truncated
  | _ + 1, [] => .error .truncated
  | n + 1, c :: rest =>
      if c = '\x22' then .ok ([], rest)
      else if c = '\\' then do
        let (d, rest) ← backslash rest
        let (more, rest) ← stringBody backslash n rest
        return (d :: more, rest)
      else if c.toNat < 32 then .error .malformed
      else do
        let (more, rest) ← stringBody backslash n rest
        return (c :: more, rest)

/-- The string whose opening quote has just been read. -/
def openString : Reader String := fun cs => do
  let (body, rest) ← stringBody strict cs.length cs
  return (String.ofList body, rest)

/-! ### Lists of items -/

/-- Where the next item of a list starts, or nothing if the list's closing mark comes next.  A comma
stands before every item but the first. -/
def nextItem (close : Char) (first : Bool) (cs : List Char) : Except Fault (Option (List Char)) :=
  match skipSpace cs with
  | [] => .error .truncated
  | c :: rest =>
      if c = close then .ok none
      else if first then .ok (some (c :: rest))
      else if c = ',' then
        match skipSpace rest with
        | [] => .error .truncated
        -- A comma promises one more item.
        | d :: more => if d = close then .error .malformed else .ok (some (d :: more))
      else .error .malformed

/-- The text behind one mark. -/
def mark (m : Char) (cs : List Char) : Except Fault (List Char) := word [m] (skipSpace cs)

/-- The mark at the end of an array. -/
def arrayEnd : Char := ']'

/-- The mark at the end of an object. -/
def objectEnd : Char := '\x7d'

end RateMonotonic.Json
