/-
**Quoted text**: a text between quotes in which every character can be told from its neighbours.

A quote and a backslash are escaped by a backslash, the common controls by a letter, and any other
character that is not printable by its code point in braces.

Main definitions:
* `Quoted.escape` — how one character is written;
* `Quoted.text` — a text between quotes.
-/

import RateMonotonic.Text.Printable

set_option relaxedAutoImplicit false
set_option autoImplicit false

namespace RateMonotonic.Quoted

/-- The hexadecimal digits of a number, in lower case, without leading zeros. -/
def hexDigits (n : Nat) : List Char :=
  if n < 16 then [Nat.digitChar n] else hexDigits (n / 16) ++ [Nat.digitChar (n % 16)]
termination_by n
decreasing_by omega

/-- How a character is written between quotes. -/
def escape (c : Char) : List Char :=
  if c = '\x22' ∨ c = '\\' then ['\\', c]
  else if c = '\n' then ['\\', 'n']
  else if c = '\r' then ['\\', 'r']
  else if c = '\t' then ['\\', 't']
  else if c.toNat = 0 then ['\\', '0']
  else if Printable.isShown c then [c]
  else ['\\', 'u', '\x7b'] ++ hexDigits c.toNat ++ ['\x7d']

/-- A text between quotes. -/
def text (s : String) : String := String.ofList ('\x22' :: s.toList.flatMap escape ++ ['\x22'])

end RateMonotonic.Quoted
