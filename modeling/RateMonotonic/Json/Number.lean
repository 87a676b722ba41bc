/-
**Numbers in JSON**, as far as fields that hold whole numbers have to know them.

A number is read as a significand of 64 bits and a power of ten.  It is whole if it has neither a
fraction nor an exponent and fits in 64 bits, with or without a sign; every other number is read as
a floating-point number, and is no JSON if it is beyond the greatest finite double.

Main definitions:
* `Json.significand` — the digits that fit in 64 bits;
* `Json.exceedsDouble` — whether a number is beyond the greatest finite double;
* `Json.number` — a number, as an integer if it is whole;
* `Json.skipNumber` — the text behind a number, whatever its value.
-/

import RateMonotonic.Json.Reader
import RateMonotonic.Text.Decimal

set_option relaxedAutoImplicit false
set_option autoImplicit false

namespace RateMonotonic.Json

open Decimal (isDigit)

/-! ### Values -/

/-- Take digits onto a significand as long as it fits in 64 bits: the significand, the number of
digits taken, and the text behind them. -/
def significand (s : Nat) : List Char → Nat × Nat × List Char
  | [] => (s, 0, [])
  | c :: rest =>
      if isDigit c && decide (10 * s + (c.toNat - 48) < 2 ^ 64) then
        let (value, count, more) := significand (10 * s + (c.toNat - 48)) rest
        (value, count + 1, more)
      else (s, 0, c :: rest)

/-- The nearest number with 53 significant bits; of two equally near ones the even one. -/
def nearestDouble (n : Nat) : Nat :=
  let unit := 2 ^ (Nat.log2 n - 52)
  let whole := n / unit
  let part := n % unit
  if 2 * part < unit ∨ (2 * part = unit ∧ whole % 2 = 0) then whole * unit else (whole + 1) * unit

/-- Whether the product of the doubles nearest to a significand and to a power of ten rounds to a
number beyond the greatest finite double. -/
def exceedsDouble (s : Nat) (exponent : Int) : Bool :=
  s ≠ 0 && (decide (308 < exponent) ||
    (decide (0 ≤ exponent) &&
      decide (2 ^ 1024 - 2 ^ 970 ≤ nearestDouble s * nearestDouble (10 ^ exponent.toNat))))

/-- A floating-point number is read, unless it is beyond the greatest finite double. -/
def float (s : Nat) (exponent : Int) : Reader (Option Int) := fun rest =>
  if exceedsDouble s exponent then .error .malformed else .ok (none, rest)

/-- An optional sign, and whether it is a minus. -/
def sign : List Char → Bool × List Char
  | [] => (false, [])
  | c :: rest => if c = '-' then (true, rest) else if c = '+' then (false, rest) else (false, c :: rest)

/-- The number whose exponent mark has just been read.  An exponent beyond 32 bits is not looked at
further: it makes the number zero, or too great. -/
def exponentPart (s : Nat) (exponent : Int) : Reader (Option Int) := fun cs =>
  let (negative, rest) := sign cs
  match rest.takeWhile isDigit with
  | [] => .error (if rest.isEmpty then .truncated else .malformed)
  | row =>
      let amount := Decimal.value row
      let behind := rest.dropWhile isDigit
      -- Such an exponent outweighs the digits of any text.
      if 2 ^ 31 ≤ amount then
        if negative ∨ s = 0 then .ok (none, behind) else .error .malformed
      else float s (if negative then exponent - amount else exponent + amount) behind

/-- Whether a character starts an exponent. -/
def isExponentMark (c : Char) : Bool := c = 'e' || c = 'E'

/-- What follows the digits of a floating-point number. -/
def floatEnd (s : Nat) (exponent : Int) : Reader (Option Int)
  | [] => float s exponent []
  | c :: rest => if isExponentMark c then exponentPart s exponent rest else float s exponent (c :: rest)

/-- The number whose point has just been read.  Digits beyond 64 bits of significand are dropped. -/
def fractionPart (s : Nat) (exponent : Int) : Reader (Option Int) := fun cs =>
  match cs with
  | [] => .error .truncated
  | c :: _ =>
      if isDigit c then
        let (value, count, rest) := significand s cs
        floatEnd value (exponent - count) (rest.dropWhile isDigit)
      else .error .malformed

/-- The integer of a sign and a 64-bit significand, if it is one that 64 bits can hold: zero has no
minus sign, and a negative one goes down to `-2 ^ 63`. -/
def integer? (negative : Bool) (s : Nat) : Option Int :=
  if negative then (if s = 0 ∨ 2 ^ 63 < s then none else some (-s)) else some s

/-- What follows the whole part of a number, of which some digits may have been dropped. -/
def wholeEnd (negative : Bool) (s dropped : Nat) : Reader (Option Int)
  | [] => if dropped = 0 then .ok (integer? negative s, []) else float s dropped []
  | c :: rest =>
      if c = '.' then fractionPart s dropped rest
      else if isExponentMark c then exponentPart s dropped rest
      else if dropped = 0 then .ok (integer? negative s, c :: rest)
      else float s dropped (c :: rest)

/-- The whole part of a number.  A zero is followed by no other digit. -/
def wholePart (negative : Bool) : Reader (Option Int)
  | [] => .error .truncated
  | c :: rest =>
      if c = '0' then
        if (rest.head?.any isDigit) then .error .malformed else wholeEnd negative 0 0 rest
      else if isDigit c then
        let (value, _, more) := significand 0 (c :: rest)
        wholeEnd negative value (more.takeWhile isDigit).length (more.dropWhile isDigit)
      else .error .malformed

/-- A number: the integer that it is, or nothing if it is no integer of 64 bits. -/
def number : Reader (Option Int)
  | [] => .error .truncated
  | c :: rest => if c = '-' then wholePart true rest else wholePart false (c :: rest)

/-! ### Skipping -/

/-- One or more digits. -/
def skipDigits (cs : List Char) : Except Fault (List Char) :=
  if cs.head?.any isDigit then .ok (cs.dropWhile isDigit) else .error .malformed

/-- An exponent, if there is one. -/
def skipExponent : List Char → Except Fault (List Char)
  | [] => .ok []
  | c :: rest => if isExponentMark c then skipDigits (sign rest).2 else .ok (c :: rest)

/-- A fraction, if there is one. -/
def skipFraction : List Char → Except Fault (List Char)
  | [] => .ok []
  | c :: rest => if c = '.' then skipDigits rest else .ok (c :: rest)

/-- The whole part: a zero alone, or digits that start with another one. -/
def skipWhole : List Char → Except Fault (List Char)
  | [] => .error .malformed
  | c :: rest =>
      if c = '0' then (if rest.head?.any isDigit then .error .malformed else .ok rest)
      else skipDigits (c :: rest)

/-- The text behind a number of any size. -/
def skipNumber (cs : List Char) : Except Fault (List Char) := do
  let whole ← skipWhole (if cs.head? = some '-' then cs.drop 1 else cs)
  let fraction ← skipFraction whole
  skipExponent fraction

end RateMonotonic.Json
