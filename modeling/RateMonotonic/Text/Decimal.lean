/-
**Decimal numbers** as text: writing a natural number without leading zeros, and reading one back.

Main definitions:
* `Decimal.digits` — the digits of a number, most significant first, no leading zero;
* `Decimal.value` — the number that a row of digits stands for;
* `Decimal.number?` — reading a row of digits, leading zeros allowed;
* `Decimal.unsigned?` — the same with an optional plus sign and an upper limit.

Main results:
* `Decimal.value_digits` — reading undoes writing;
* `Decimal.isDigit_of_mem_digits` — a written number consists of digits.
-/

set_option relaxedAutoImplicit false
set_option autoImplicit false

-- The limits on numbers are powers of two and of ten. `^` on them is the power that evaluates, also
-- where the monoid structure of the numbers is in scope.
attribute [instance (high), default_instance (high + 1)] instPowNat

namespace RateMonotonic.Decimal

/-- The last digit of a number. -/
def digit (n : Nat) : Char := Char.ofNat (48 + n % 10)

/-- The digits of a number, most significant first; zero is the single digit `0`. -/
def digits (n : Nat) : List Char :=
  if n < 10 then [digit n] else digits (n / 10) ++ [digit n]
termination_by n
decreasing_by omega

/-- A number as text. -/
def text (n : Nat) : String := String.ofList (digits n)

/-- An integer as text: a minus sign stands before the digits of a negative one. -/
def signedText (n : Int) : String :=
  if n < 0 then "-" ++ text n.natAbs else text n.natAbs

/-- The digits `0` to `9`, and no other script's. -/
def isDigit (c : Char) : Bool := decide (48 ≤ c.toNat) && decide (c.toNat ≤ 57)

/-- The number that a row of digits stands for. -/
def value (cs : List Char) : Nat := cs.foldl (fun v c => 10 * v + (c.toNat - 48)) 0

/-- Read one or more digits. -/
def number? (cs : List Char) : Option Nat :=
  if !cs.isEmpty && cs.all isDigit then some (value cs) else none

/-- Read an optional plus sign and one or more digits, if the number is below the limit. -/
def unsigned? (limit : Nat) (cs : List Char) : Option Nat :=
  let row := match cs with
    | '+' :: rest => rest
    | _ => cs
  (number? row).filter (· < limit)

/-! ### Writing and reading -/

theorem toNat_digit (n : Nat) : (digit n).toNat = 48 + n % 10 := by
  have h : (48 + n % 10).isValidChar := by
    left
    omega
  rw [digit, Char.ofNat, dif_pos h]
  rfl

theorem isDigit_digit (n : Nat) : isDigit (digit n) = true := by
  simp only [isDigit, toNat_digit, Bool.and_eq_true, decide_eq_true_eq]
  omega

theorem isDigit_of_mem_digits {n : Nat} {c : Char} (h : c ∈ digits n) : isDigit c = true := by
  induction n using Nat.strongRecOn with
  | _ n ih =>
      rw [digits] at h
      split at h
      · simp only [List.mem_singleton] at h
        exact h ▸ isDigit_digit n
      · simp only [List.mem_append, List.mem_singleton] at h
        rcases h with h | h
        · exact ih (n / 10) (by omega) h
        · exact h ▸ isDigit_digit n

theorem digits_ne_nil (n : Nat) : digits n ≠ [] := by
  rw [digits]
  split <;> simp

/-- **Reading undoes writing.** -/
theorem value_digits (n : Nat) : value (digits n) = n := by
  induction n using Nat.strongRecOn with
  | _ n ih =>
      rw [digits]
      split
      · simp only [value, List.foldl_cons, List.foldl_nil, toNat_digit]
        omega
      · have hrec := ih (n / 10) (by omega)
        simp only [value] at hrec
        simp only [value, List.foldl_append, List.foldl_cons, List.foldl_nil, hrec, toNat_digit]
        omega

theorem number?_digits (n : Nat) : number? (digits n) = some n := by
  have hall : (digits n).all isDigit = true :=
    List.all_eq_true.2 fun c hc => isDigit_of_mem_digits hc
  simp [number?, hall, digits_ne_nil, value_digits]

end RateMonotonic.Decimal
