/-
**Typed JSON**: numbers, strings, records and variants read straight into a type.

A record is an object, or an array of its fields in order.  Its fields are read one after the other,
each of them an update of a draft; whether the draft is complete is decided at the end.  A variant
is a name, or an object with a name as its only key.

Main definitions:
* `Json.natural`, `Json.integer`, `Json.string` — values of one type, with `Json.otherValue` for a
  value of another type;
* `Json.skipValue` — the text behind any value;
* `Json.RecordField`, `Json.record` — records;
* `Json.Variant`, `Json.variant` — variants;
* `Json.decode` — a text that holds one value and nothing else.
-/

import RateMonotonic.Json.Number

set_option relaxedAutoImplicit false
set_option autoImplicit false

namespace RateMonotonic.Json

/-! ### Values of one type -/

/-- The fault of a value that has another type than expected.  A word, a number or a string that is
itself at fault comes first. -/
def otherValue (cs : List Char) : Fault :=
  let faultOr {α : Type} (r : Except Fault α) : Fault :=
    match r with
    | .error f => f
    | .ok _ => .mistyped
  match cs with
  | [] => .truncated
  | c :: rest =>
      if c = 'n' then faultOr (word ['u', 'l', 'l'] rest)
      else if c = 't' then faultOr (word ['r', 'u', 'e'] rest)
      else if c = 'f' then faultOr (word ['a', 'l', 's', 'e'] rest)
      else if c = '\x22' then faultOr (openString rest)
      else if c = '-' || Decimal.isDigit c then faultOr (number (c :: rest))
      else if c = '[' || c = '\x7b' then .mistyped
      else .malformed

/-- A number, as an integer if it is one of 64 bits. -/
def numeric : Reader (Option Int) := fun cs =>
  match skipSpace cs with
  | [] => .error .truncated
  | c :: rest =>
      if c = '-' || Decimal.isDigit c then number (c :: rest) else .error (otherValue (c :: rest))

/-- An integer in a range. -/
def integer (low high : Int) : Reader Int := fun cs => do
  match ← numeric cs with
  | (some n, rest) => if low ≤ n ∧ n ≤ high then return (n, rest) else throw .mistyped
  | (none, _) => throw .mistyped

/-- A natural number below a limit. -/
def natural (limit : Nat) : Reader Nat := fun cs => do
  let (n, rest) ← integer 0 (limit - 1) cs
  return (n.toNat, rest)

/-- A string. -/
def string : Reader String := fun cs =>
  match skipSpace cs with
  | [] => .error .truncated
  | c :: rest => if c = '\x22' then openString rest else .error (otherValue (c :: rest))

/-- The word for no value. -/
def nothing : Reader Unit := fun cs =>
  match skipSpace cs with
  | [] => .error .truncated
  | c :: rest =>
      if c = 'n' then do
        let rest ← word ['u', 'l', 'l'] rest
        return ((), rest)
      else .error (otherValue (c :: rest))

/-- A value as an update of a draft. -/
def Reader.update {α σ : Type} (read : Reader α) (set : α → σ → σ) : Reader (σ → σ) := fun cs => do
  let (a, rest) ← read cs
  return (set a, rest)

/-- A value as another value. -/
def Reader.map {α β : Type} (f : α → β) (read : Reader α) : Reader β := fun cs => do
  let (a, rest) ← read cs
  return (f a, rest)

/-! ### Skipping -/

/-- The text behind a value that is neither array nor object. -/
def skipScalar (c : Char) (rest : List Char) : Except Fault (List Char) :=
  if c = 'n' then word ['u', 'l', 'l'] rest
  else if c = 't' then word ['r', 'u', 'e'] rest
  else if c = 'f' then word ['a', 'l', 's', 'e'] rest
  else if c = '\x22' then (·.2) <$> stringBody loose rest.length rest
  else if c = '-' || Decimal.isDigit c then skipNumber (c :: rest)
  else .error .malformed

/-- The text behind a key and its colon. -/
def skipKey : List Char → Except Fault (List Char)
  | [] => .error .truncated
  | c :: rest =>
      if c = '\x22' then do
        let (_, rest) ← stringBody loose rest.length rest
        mark ':' rest
      else .error .malformed

mutual

/-- The text behind a value, in at most this many steps. -/
def skipValueIn : Nat → List Char → Except Fault (List Char)
  | 0, _ => .error .truncated
  | n + 1, cs =>
      match skipSpace cs with
      | [] => .error .truncated
      | c :: rest =>
          if c = '[' then skipItemsIn n arrayEnd true rest
          else if c = '\x7b' then skipItemsIn n objectEnd true rest
          else skipScalar c rest

/-- The text behind the items of an array or object, in at most this many steps. -/
def skipItemsIn : Nat → Char → Bool → List Char → Except Fault (List Char)
  | 0, _, _, _ => .error .truncated
  | n + 1, close, first, cs =>
      match nextItem close first cs with
      | .error f => .error f
      | .ok none => mark close cs
      | .ok (some item) =>
          match (if close = objectEnd then skipKey item else .ok item) with
          | .error f => .error f
          | .ok start =>
              match skipValueIn n start with
              | .error f => .error f
              | .ok rest => skipItemsIn n close false rest

end

/-- The text behind any value. -/
def skipValue (cs : List Char) : Except Fault (List Char) := skipValueIn (2 * cs.length + 2) cs

/-! ### Records -/

/-- A field of a record: its name, and how its value updates the draft. -/
structure RecordField (σ : Type) where
  /-- The key of the field. -/
  name : String
  /-- The value as an update of the draft. -/
  read : Reader (σ → σ)

/-- What becomes of a key that names no field. -/
inductive UnknownKeys where
  /-- Its value is skipped. -/
  | skipped
  /-- It is refused. -/
  | refused
deriving DecidableEq, Repr

/-- The key at the start of an item. -/
def key : Reader String
  | [] => .error .truncated
  | c :: rest => if c = '\x22' then openString rest else .error .malformed

/-- The members of an object, at most this many, with the keys seen so far and the draft.  A key
that names a field must not come twice. -/
def membersIn {σ : Type} (fields : List (RecordField σ)) (unknown : UnknownKeys) :
    Nat → Bool → List String → σ → Reader σ
  | 0, _, _, _, _ => .error .truncated
  | n + 1, first, seen, draft, cs => do
      match ← nextItem objectEnd first cs with
      | none => return (draft, cs)
      | some item =>
          let (name, rest) ← key item
          match fields.find? (·.name == name) with
          | some field =>
              -- Refused at the second key already, whatever stands behind it.
              if seen.contains name then throw .mistyped
              let (set, rest) ← field.read (← mark ':' rest)
              membersIn fields unknown n false (name :: seen) (set draft) rest
          | none =>
              match unknown with
              | .refused => throw .mistyped
              | .skipped =>
                  let rest ← skipValue (← mark ':' rest)
                  membersIn fields unknown n false seen draft rest

/-- The elements of an array as fields in their order; an array may end before the fields do. -/
def elements {σ : Type} : List (RecordField σ) → Bool → σ → Reader σ
  | [], _, draft, cs => .ok (draft, cs)
  | field :: fields, first, draft, cs => do
      match ← nextItem arrayEnd first cs with
      | none => return (draft, cs)
      | some item =>
          let (set, rest) ← field.read item
          elements fields false (set draft) rest

/-- A complete draft. -/
def complete {α σ : Type} (finish : σ → Option α) (draft : σ) : Except Fault α :=
  match finish draft with
  | some a => .ok a
  | none => .error .mistyped

/-- A record: the draft after all fields, if it is complete. -/
def record {α σ : Type} (fields : List (RecordField σ)) (unknown : UnknownKeys) (start : σ)
    (finish : σ → Option α) : Reader α := fun cs =>
  match skipSpace cs with
  | [] => .error .truncated
  | c :: rest =>
      if c = '[' then do
        let (draft, rest) ← elements fields true start rest
        -- A field that is missing is a fault before a surplus element is.
        let a ← complete finish draft
        return (a, ← mark arrayEnd rest)
      else if c = '\x7b' then do
        let (draft, rest) ← membersIn fields unknown (rest.length + 1) true [] start rest
        let a ← complete finish draft
        return (a, ← mark objectEnd rest)
      else .error (otherValue (c :: rest))

/-! ### Variants -/

/-- What comes with a variant's name. -/
inductive Variant (α : Type) where
  /-- The name says all. -/
  | plain (value : α)
  /-- The name comes with content. -/
  | content (read : Reader α)

/-- The variant of a name. -/
def named {α : Type} (variants : List (String × Variant α)) (name : String) :
    Except Fault (Variant α) :=
  match variants.find? (·.1 == name) with
  | some v => .ok v.2
  | none => .error .mistyped

/-- A variant: its name alone, or an object with its name as the only key. -/
def variant {α : Type} (variants : List (String × Variant α)) : Reader α := fun cs =>
  match skipSpace cs with
  | [] => .error .truncated
  | c :: rest =>
      if c = '\x22' then do
        let (name, rest) ← openString rest
        match ← named variants name with
        | .plain value => return (value, rest)
        | .content _ => throw .mistyped
      else if c = '\x7b' then do
        let (name, rest) ← key (skipSpace rest)
        let form ← named variants name
        let rest ← mark ':' rest
        match form with
        | .plain value =>
            let (_, rest) ← nothing rest
            return (value, ← mark objectEnd rest)
        | .content read =>
            let (value, rest) ← read rest
            return (value, ← mark objectEnd rest)
      else .error .malformed

/-! ### Whole texts -/

/-- The value that a text holds; only spaces may follow it. -/
def decode {α : Type} (read : Reader α) (cs : List Char) : Except Fault α := do
  let (a, rest) ← read cs
  if (skipSpace rest).isEmpty then return a else throw .malformed

end RateMonotonic.Json
