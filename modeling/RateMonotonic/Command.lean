/-
**Commands**: the lines by which a client drives a scheduler.

    R, <number>, <period>, <budget>.    register a task, times in milliseconds
    Y, <number>.                        end the task's job
    D, <number>.                        deregister the task
    S                                   report on all tasks

The comma behind the letter and the blanks around the fields are optional, and so is the point after
`S`.

Main definitions:
* `Command` — the four commands; `Command.chars` — the line of a command;
* `Command.Fault`, `Command.Fault.message` — why a line is no command;
* `Command.parse` — the command of a line, or the first fault.

Main results:
* `Command.ofFields_of_length_ne` — a wrong number of fields is the first fault of them.
-/

import RateMonotonic.Task
import RateMonotonic.Text.Blank

set_option relaxedAutoImplicit false
set_option autoImplicit false

namespace RateMonotonic

/-- What a client asks for. -/
inductive Command where
  | register (id : TaskId) (period budget : Duration)
  | yield (id : TaskId)
  | deregister (id : TaskId)
  | status
deriving DecidableEq, Repr

namespace Command

/-- The task that a command is about. -/
def task? : Command → Option TaskId
  | .register id _ _ => some id
  | .yield id => some id
  | .deregister id => some id
  | .status => none

/-! ### Writing -/

/-- The line of a command.  Times are cut to whole milliseconds. -/
def chars : Command → List Char
  | .register id period budget =>
      ['R', ',', ' '] ++ Decimal.digits id.number.toNat ++ [',', ' '] ++
        Decimal.digits period.millis ++ [',', ' '] ++ Decimal.digits budget.millis ++ ['.']
  | .yield id => ['Y', ',', ' '] ++ Decimal.digits id.number.toNat ++ ['.']
  | .deregister id => ['D', ',', ' '] ++ Decimal.digits id.number.toNat ++ ['.']
  | .status => ['S']

/-- The line of a command, as text. -/
def text (c : Command) : String := String.ofList c.chars

/-! ### Faults -/

/-- The fields of commands. -/
inductive FieldName where
  | taskId
  | period
  | budget
deriving DecidableEq, Repr

/-- The words for a field. -/
def FieldName.text : FieldName → String
  | .taskId => "task id"
  | .period => "period"
  | .budget => "budget"

/-- Why a line is no command. -/
inductive Fault where
  /-- There is nothing on it. -/
  | empty
  /-- No command has this letter. -/
  | unknownCommand (letter : Char)
  /-- The point at the end is missing. -/
  | missingTerminator (letter : Char)
  /-- There are too few or too many fields. -/
  | fieldCount (letter : Char) (expected found : Nat)
  /-- The field at this position, counted from one, is blank. -/
  | emptyField (letter : Char) (position : Nat)
  /-- A field is no number, or too great. -/
  | invalidNumber (field : FieldName) (value : String)
deriving DecidableEq, Repr

/-- The wording of a fault. -/
def Fault.message : Fault → String
  | .empty => "empty command"
  | .unknownCommand letter => "unknown command '" ++ letter.toString ++ "'"
  | .missingTerminator letter => "command '" ++ letter.toString ++ "' must end with '.'"
  | .fieldCount letter expected found =>
      "command '" ++ letter.toString ++ "' takes " ++ Decimal.text expected ++ " field(s), found " ++
        Decimal.text found
  | .emptyField letter position =>
      "command '" ++ letter.toString ++ "' has an empty field at position " ++ Decimal.text position
  | .invalidNumber field value => "invalid " ++ field.text ++ " '" ++ value ++ "'"

/-! ### Reading -/

/-- The commands that take fields. -/
inductive Kind where
  | register
  | yield
  | deregister
deriving DecidableEq, Repr

/-- The letter of a command. -/
def Kind.letter : Kind → Char
  | .register => 'R'
  | .yield => 'Y'
  | .deregister => 'D'

/-- The number of fields that a command takes. -/
def Kind.fieldCount : Kind → Nat
  | .register => 3
  | .yield => 1
  | .deregister => 1

/-- The command of a letter, if it takes fields. -/
def Kind.ofLetter? (c : Char) : Option Kind :=
  if c = 'R' then some .register
  else if c = 'Y' then some .yield
  else if c = 'D' then some .deregister
  else none

/-- A text without a comma at its start. -/
def dropComma : List Char → List Char
  | [] => []
  | c :: rest => if c = ',' then rest else c :: rest

/-- A text without a point at its end, if it has one. -/
def beforePoint? (cs : List Char) : Option (List Char) :=
  if cs.getLast? = some '.' then some cs.dropLast else none

/-- A text without any points at its end. -/
def dropPoints (cs : List Char) : List Char := (cs.reverse.dropWhile (· = '.')).reverse

/-- The fields of a text, without the blanks around them. -/
def fieldsOf (cs : List Char) : List (List Char) := (cs.splitOn ',').map Blank.trim

/-- A field that holds a number below a limit. -/
def numberField (name : FieldName) (limit : Nat) (cs : List Char) : Except Fault Nat :=
  match Decimal.unsigned? limit cs with
  | some n => .ok n
  | none => .error (.invalidNumber name (String.ofList cs))

/-- A field that holds a task's number. -/
def idField (cs : List Char) : Except Fault TaskId :=
  (fun n => ⟨n.toUInt32⟩) <$> numberField .taskId (2 ^ 32) cs

/-- A field that holds a time in milliseconds. -/
def timeField (name : FieldName) (cs : List Char) : Except Fault Duration :=
  (fun n => Duration.ofMillis n.toUInt64) <$> numberField name (2 ^ 64) cs

/-- Every field holds something. -/
def checkFilled (kind : Kind) (fields : List (List Char)) : Except Fault Unit :=
  match fields.findIdx? (·.isEmpty) with
  | some i => .error (.emptyField kind.letter (i + 1))
  | none => .ok ()

/-- The number of fields is not the one that the command takes. -/
def countFault (kind : Kind) (fields : List (List Char)) : Fault :=
  .fieldCount kind.letter kind.fieldCount fields.length

/-- The command of as many fields as it takes. -/
def ofNumbers (kind : Kind) (fields : List (List Char)) : Except Fault Command :=
  match kind, fields with
  | .register, [id, period, budget] =>
      return .register (← idField id) (← timeField .period period) (← timeField .budget budget)
  | .yield, [id] => return .yield (← idField id)
  | .deregister, [id] => return .deregister (← idField id)
  -- Another number of fields does not come here.
  | _, _ => .error (countFault kind fields)

/-- The command of these fields: as many as the command takes, each of them filled with a number. -/
def ofFields (kind : Kind) (fields : List (List Char)) : Except Fault Command :=
  if fields.length ≠ kind.fieldCount then .error (countFault kind fields)
  else do
    checkFilled kind fields
    ofNumbers kind fields

/-- What may follow the letter of a report: nothing, or a point. -/
def ofStatus (rest : List Char) : Except Fault Command :=
  let body := Blank.trim rest
  if body = [] ∨ body = ['.'] then .ok .status
  -- Even without a comma there is one field, blank or not.
  else .error (.fieldCount 'S' 0 ((dropPoints body).splitOn ',').length)

/-- The command of a letter and the text behind it. -/
def ofLetter (letter : Char) (rest : List Char) : Except Fault Command :=
  if letter = 'S' then ofStatus rest
  else
    match Kind.ofLetter? letter with
    | none => .error (.unknownCommand letter)
    | some kind =>
        match beforePoint? (Blank.trimRight rest) with
        | none => .error (.missingTerminator letter)
        | some body => ofFields kind (fieldsOf body)

/-- The command of a line, or the first fault. -/
def parse (line : List Char) : Except Fault Command :=
  match Blank.trim line with
  | [] => .error .empty
  | letter :: rest => ofLetter letter (dropComma (Blank.trimLeft rest))

/-! ### Letters and fields -/

theorem letter_ofLetter? {c : Char} {kind : Kind} (h : Kind.ofLetter? c = some kind) :
    kind.letter = c := by
  unfold Kind.ofLetter? at h
  split at h
  · cases h
    next hc => exact hc.symm
  · split at h
    · cases h
      next hc => exact hc.symm
    · split at h
      · cases h
        next hc => exact hc.symm
      · cases h

theorem ofFields_of_length_ne {kind : Kind} {fields : List (List Char)}
    (h : fields.length ≠ kind.fieldCount) : ofFields kind fields = .error (countFault kind fields) :=
  if_pos h

end Command

end RateMonotonic
