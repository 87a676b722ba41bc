/-
**Status reports that are read back.**

Nothing but fixed words and newlines stands between the numbers of a report, and the numbers have no
fixed width.  Still a report can be taken apart: no line has a newline inside, so the text falls into
its lines, four of them to a task; what follows the label of a line is one number, and a number is
read back from its digits.  So a report says exactly this of every task, in the order of the tasks:
its number, and its two times in whole milliseconds.

Main definitions:
* `Report.Entry`, `Report.entry` — what a report says of a task;
* `Report.lines` — the four lines on a task;
* `Report.entriesOfLines?`, `Report.decode?` — reading a report back.

Main results:
* `Report.splitOn_blocksFrom` — a report falls into the lines of its tasks;
* `Report.decode?_text` — **a report is read back**;
* `Report.text_decodable` — **reports are equal exactly when they say the same of every task**.
-/

import Mathlib.Data.List.Basic
import RateMonotonic.Report

set_option relaxedAutoImplicit false
set_option autoImplicit false

namespace RateMonotonic.Report

/-- What a report says of a task. -/
structure Entry where
  id : TaskId
  /-- The period in whole milliseconds. -/
  period : ℕ
  /-- The budget in whole milliseconds. -/
  budget : ℕ
deriving DecidableEq, Repr

/-- What a report says of this task. -/
def entry (t : TaskInfo) : Entry := ⟨t.id, t.period.millis, t.budget.millis⟩

/-! ### Reading -/

/-- The line that opens the block at a position. -/
def heading (position : ℕ) : List Char :=
  "Process # ".toList ++ Decimal.digits position ++ " details:".toList

/-- The number behind the label of a line. -/
def labelled? (label : String) (line : List Char) : Option ℕ :=
  (line.dropPrefix? label.toList).bind Decimal.number?

/-- The task number of this value, if it has 32 bits. -/
def taskId? (n : ℕ) : Option TaskId := if n < 2 ^ 32 then some ⟨n.toUInt32⟩ else none

/-- The entries in these lines, four of them to a task, with the blocks numbered from a position. -/
def entriesOfLines? (position : ℕ) : List (List Char) → Option (List Entry)
  | [] => some []
  | title :: id :: period :: budget :: rest =>
      if title = heading position then do
        let id ← (← labelled? "PID:" id) |> taskId?
        let period ← labelled? "P:" period
        let budget ← labelled? "C:" budget
        let more ← entriesOfLines? (position + 1) rest
        return ⟨id, period, budget⟩ :: more
      else none
  | _ => none

/-- The entries of a report: of the lines that its newlines end. -/
def decode? (report : String) : Option (List Entry) :=
  entriesOfLines? 1 (report.toList.splitOn '\n').dropLast

/-! ### Lines -/

/-- The four lines on a task. -/
def lines (position : ℕ) (t : TaskInfo) : List (List Char) :=
  [heading position, "PID:".toList ++ Decimal.digits t.id.number.toNat,
    "P:".toList ++ Decimal.digits t.period.millis, "C:".toList ++ Decimal.digits t.budget.millis]

/-- The lines on tasks from a position on. -/
def linesFrom (position : ℕ) : List TaskInfo → List (List Char)
  | [] => []
  | t :: rest => lines position t ++ linesFrom (position + 1) rest

/-- A block is its four lines, each with a newline at its end. -/
theorem block_eq (position : ℕ) (t : TaskInfo) :
    block position t = (lines position t).flatMap fun line => line ++ ['\n'] := by
  have hid : " details:\nPID:".toList = " details:".toList ++ '\n' :: "PID:".toList := rfl
  have hperiod : "\nP:".toList = '\n' :: "P:".toList := rfl
  have hbudget : "\nC:".toList = '\n' :: "C:".toList := rfl
  unfold block lines heading
  rw [hid, hperiod, hbudget]
  simp only [List.flatMap_cons, List.flatMap_nil, List.append_assoc, List.cons_append,
    List.nil_append, List.append_nil]

theorem newline_notMem_labelled {label : List Char} (h : '\n' ∉ label) (n : ℕ) :
    '\n' ∉ label ++ Decimal.digits n := by
  intro hmem
  rcases List.mem_append.1 hmem with hlabel | hdigits
  · exact h hlabel
  · have hdigit := Decimal.isDigit_of_mem_digits hdigits
    revert hdigit
    decide

theorem newline_notMem_heading (position : ℕ) : '\n' ∉ heading position := by
  intro hmem
  unfold heading at hmem
  rcases List.mem_append.1 hmem with hfront | hback
  · exact newline_notMem_labelled (by decide) position hfront
  · revert hback
    decide

theorem newline_notMem_lines {position : ℕ} {t : TaskInfo} {line : List Char}
    (h : line ∈ lines position t) : '\n' ∉ line := by
  unfold lines at h
  simp only [List.mem_cons, List.not_mem_nil, or_false] at h
  rcases h with rfl | rfl | rfl | rfl
  · exact newline_notMem_heading position
  · exact newline_notMem_labelled (by decide) _
  · exact newline_notMem_labelled (by decide) _
  · exact newline_notMem_labelled (by decide) _

/-- Lines with newlines at their ends are split at these. -/
theorem splitOn_flatMap {rows : List (List Char)} (h : ∀ row ∈ rows, '\n' ∉ row) (rest : List Char) :
    (rows.flatMap (fun row => row ++ ['\n']) ++ rest).splitOn '\n' = rows ++ rest.splitOn '\n' := by
  induction rows with
  | nil => rfl
  | cons row rows ih =>
      have hrow : '\n' ∉ row := h row List.mem_cons_self
      have hrows : ∀ row ∈ rows, '\n' ∉ row := fun r hr => h r (List.mem_cons_of_mem row hr)
      rw [List.flatMap_cons, List.append_assoc, List.append_assoc, List.singleton_append,
        List.splitOn_append_cons_self_of_not_mem hrow, ih hrows, List.cons_append]

/-- **A report falls into the lines of its tasks**, and nothing is left behind its last newline. -/
theorem splitOn_blocksFrom (position : ℕ) (ts : List TaskInfo) :
    (blocksFrom position ts).splitOn '\n' = linesFrom position ts ++ [[]] := by
  induction ts generalizing position with
  | nil => rfl
  | cons t ts ih =>
      rw [blocksFrom, block_eq, splitOn_flatMap fun _ => newline_notMem_lines, ih, linesFrom,
        List.append_assoc]

/-! ### Reading what has been written -/

theorem labelled?_digits (label : String) (n : ℕ) :
    labelled? label (label.toList ++ Decimal.digits n) = some n := by
  rw [labelled?, List.dropPrefix?_append_of_beq _ (beq_self_eq_true _), Option.bind_some,
    Decimal.number?_digits]

theorem taskId?_toNat (id : TaskId) : taskId? id.number.toNat = some id := by
  rw [taskId?, if_pos id.number.toNat_lt]
  simp

theorem entriesOfLines?_linesFrom (position : ℕ) (ts : List TaskInfo) :
    entriesOfLines? position (linesFrom position ts) = some (ts.map entry) := by
  induction ts generalizing position with
  | nil => rfl
  | cons t ts ih =>
      simp only [linesFrom, lines, List.cons_append, List.nil_append, entriesOfLines?, if_true,
        labelled?_digits, taskId?_toNat, ih, Option.bind_eq_bind, Option.bind_some]
      rfl

/-- **A report is read back.** -/
theorem decode?_text (ts : List TaskInfo) : decode? (text ts) = some (ts.map entry) := by
  rw [decode?, text, String.toList_ofList, chars, splitOn_blocksFrom, List.dropLast_concat,
    entriesOfLines?_linesFrom]

/-- A report depends on its entries only. -/
theorem block_congr {t u : TaskInfo} (h : entry t = entry u) (position : ℕ) :
    block position t = block position u := by
  simp only [entry, Entry.mk.injEq] at h
  obtain ⟨hid, hperiod, hbudget⟩ := h
  unfold block
  rw [hid, hperiod, hbudget]

theorem blocksFrom_congr {ts us : List TaskInfo} (h : ts.map entry = us.map entry) (position : ℕ) :
    blocksFrom position ts = blocksFrom position us := by
  induction ts generalizing us position with
  | nil =>
      cases us with
      | nil => rfl
      | cons u us => cases h
  | cons t ts ih =>
      cases us with
      | nil => cases h
      | cons u us =>
          obtain ⟨hhead, htail⟩ := List.cons.inj h
          rw [blocksFrom, blocksFrom, block_congr hhead, ih htail]

/-- The reports on two lists of tasks are equal exactly when they have the same entries. -/
theorem text_eq_iff {ts us : List TaskInfo} : text ts = text us ↔ ts.map entry = us.map entry := by
  constructor
  · intro h
    have hdecoded := congrArg decode? h
    rwa [decode?_text, decode?_text, Option.some.injEq] at hdecoded
  · intro h
    rw [text, text, chars, chars, blocksFrom_congr h]

/-- Entries are the same when they are the same at every position. -/
theorem map_entry_eq_iff {ts us : List TaskInfo} :
    ts.map entry = us.map entry ↔
      ts.length = us.length ∧ ∀ i (ht : i < ts.length) (hu : i < us.length),
        ts[i].id = us[i].id ∧ ts[i].period.millis = us[i].period.millis ∧
          ts[i].budget.millis = us[i].budget.millis := by
  rw [List.ext_getElem_iff]
  simp only [List.length_map, List.getElem_map, entry, Entry.mk.injEq]

/-- **Reports are equal exactly when they say the same of every task**: they are on as many tasks,
and agree position by position on the task's number and on period and budget in whole milliseconds.
There is a reader that recovers all this from the report of any list. -/
theorem text_decodable :
    (∀ ts us : List TaskInfo, text ts = text us ↔
      ts.length = us.length ∧ ∀ i (ht : i < ts.length) (hu : i < us.length),
        ts[i].id = us[i].id ∧ ts[i].period.millis = us[i].period.millis ∧
          ts[i].budget.millis = us[i].budget.millis) ∧
      ∀ ts : List TaskInfo, decode? (text ts) = some (ts.map entry) :=
  ⟨fun _ _ => text_eq_iff.trans map_entry_eq_iff, decode?_text⟩

end RateMonotonic.Report
