/-
**Lines of text** in a row of bytes.

A line ends at a newline; a carriage return right before it belongs to the end.  The last line may
lack its newline.  Every line is text in UTF-8, or it is no text at all.

Main definitions:
* `Lines.rows` — the bytes of every line, without its end;
* `Lines.ofBytes` — every line as text, if it is.
-/

set_option relaxedAutoImplicit false
set_option autoImplicit false

namespace RateMonotonic.Lines

/-- The newline. -/
def newline : UInt8 := 10

/-- The carriage return. -/
def carriageReturn : UInt8 := 13

/-- A line without a carriage return at its end. -/
def dropReturn (row : List UInt8) : List UInt8 :=
  if row.getLast? = some carriageReturn then row.dropLast else row

/-- The lines of the parts between newlines: what follows the last newline is a line only if it is
not empty. -/
def ofParts : List (List UInt8) → List (List UInt8)
  | [] => []
  | [last] => if last.isEmpty then [] else [last]
  | part :: rest => dropReturn part :: ofParts rest

/-- The bytes of every line, without its end. -/
def rows (bytes : List UInt8) : List (List UInt8) := ofParts (bytes.splitOn newline)

/-- The text of a row of bytes, if it is text in UTF-8. -/
def text? (row : List UInt8) : Option (List Char) :=
  (String.fromUTF8? ⟨row.toArray⟩).map String.toList

/-- Every line as text, if it is. -/
def ofBytes (bytes : List UInt8) : List (Option (List Char)) := (rows bytes).map text?

end RateMonotonic.Lines
