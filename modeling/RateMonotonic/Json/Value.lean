/-
**Writing JSON**: values, and their text without spaces or over several lines.

Main definitions:
* `Json.Value` — the values that are written;
* `Json.Value.chars`, `Json.Value.text` — a value on one line without spaces;
* `Json.Value.lines` — a value with one member per line;
* `Json.escapeChar` — a character between quotes.
-/

import RateMonotonic.Text.Decimal

set_option relaxedAutoImplicit false
set_option autoImplicit false

namespace RateMonotonic.Json

/-- A value to be written. -/
inductive Value where
  | nothing
  | number (n : Int)
  | string (s : String)
  | array (items : List Value)
  | object (members : List (String × Value))

/-! ### Strings -/

/-- A control character as a unit of four hexadecimal digits. -/
def controlUnit (c : Char) : List Char :=
  ['\\', 'u', '0', '0', Nat.digitChar (c.toNat / 16), Nat.digitChar (c.toNat % 16)]

/-- A character between quotes. -/
def escapeChar (c : Char) : List Char :=
  if c = '\x22' ∨ c = '\\' then ['\\', c]
  else if c = '\x08' then ['\\', 'b']
  else if c = '\x0c' then ['\\', 'f']
  else if c = '\n' then ['\\', 'n']
  else if c = '\r' then ['\\', 'r']
  else if c = '\t' then ['\\', 't']
  else if c.toNat < 32 then controlUnit c
  else [c]

/-- A string between quotes. -/
def quoted (s : String) : List Char := '\x22' :: (s.toList.flatMap escapeChar ++ ['\x22'])

/-! ### Values -/

/-- An integer in decimal. -/
def integerChars (n : Int) : List Char :=
  if n < 0 then '-' :: Decimal.digits n.natAbs else Decimal.digits n.natAbs

namespace Value

mutual

/-- A value on one line without spaces. -/
def chars : Value → List Char
  | .nothing => ['n', 'u', 'l', 'l']
  | .number n => integerChars n
  | .string s => quoted s
  | .array items => '[' :: (itemChars items ++ [']'])
  | .object members => '\x7b' :: (memberChars members ++ ['\x7d'])

/-- Values with commas between them. -/
def itemChars : List Value → List Char
  | [] => []
  | [v] => v.chars
  | v :: rest => v.chars ++ ',' :: itemChars rest

/-- Keys and values with commas between them. -/
def memberChars : List (String × Value) → List Char
  | [] => []
  | [(k, v)] => quoted k ++ ':' :: v.chars
  | (k, v) :: rest => quoted k ++ ':' :: (v.chars ++ ',' :: memberChars rest)

end

/-- A value on one line without spaces, as text. -/
def text (v : Value) : String := String.ofList v.chars

/-- A natural number. -/
def nat (n : Nat) : Value := .number n

/-- A variant: its name as the only key of its content. -/
def tagged (name : String) (content : Value) : Value := .object [(name, content)]

/-- An object over several lines: every member on a line of its own, two spaces in. -/
def lines (members : List (String × Value)) : List Char :=
  let line (m : String × Value) := [' ', ' '] ++ quoted m.1 ++ [':', ' '] ++ m.2.chars
  ['\x7b', '\n'] ++ [',', '\n'].intercalate (members.map line) ++ ['\n', '\x7d']

end Value

end RateMonotonic.Json
