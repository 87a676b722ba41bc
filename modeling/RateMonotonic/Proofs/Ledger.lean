/-
**A ledger**: what a session would answer if there were nothing but a list of tasks.

A ledger reads the same lines as a session.  It keeps what the tasks were registered with, and no
record, no queue, no timer, no time.  A call of the scheduler comes to the same end: whether it is
refused, and which tasks are registered after it, is settled in its first section, and no section
of it and no step of a thread changes that any more.

Main definitions:
* `Ledger`, `Ledger.Rules` — the list of tasks with what became of the lines, and what is given from
  outside;
* `Ledger.obey`, `Ledger.line`, `Ledger.run` — a command, a line, all lines;
* `Fate`, `Activity.fate` — the end that a call will come to.

Main results:
* `Ledger.line_eq` — a line is read without its blank ends;
* `Ledger.Rules.admits_iff` — a ledger lists a task when the scheduler registers it;
* `Activity.fate_step` — **no section of a call changes the end that it comes to**.
-/

import RateMonotonic.Proofs.ExactLoad
import RateMonotonic.Session

set_option relaxedAutoImplicit false
set_option autoImplicit false

namespace RateMonotonic

/-! ### The ledger -/

/-- A list of tasks, and what became of the lines so far. -/
structure Ledger where
  /-- What the tasks were registered with, in order. -/
  tasks : List TaskInfo
  summary : Summary
  /-- The reports written so far. -/
  out : String
deriving DecidableEq

namespace Ledger

/-- What a ledger is told from outside. -/
structure Rules where
  /-- The bound on total utilization, in permille. -/
  bound : ℕ
  /-- The periods whose boundaries the clock can show. -/
  representable : Duration → Bool
  /-- The handles of the live tasks. -/
  resolver : Resolver

/-- Whether a task is listed. -/
def listed (tasks : List TaskInfo) (id : TaskId) : Bool := tasks.any (·.id = id)

/-- What tasks take together, in permille, each share rounded down. -/
def load (tasks : List TaskInfo) : ℕ :=
  (tasks.map fun t => 1000 * t.budget.nanos / t.period.nanos).sum

/-- Whether a task may be listed: its times are not empty, its boundaries are on the clock, it is
not there, it fits and it is alive. -/
def Rules.admits (g : Rules) (tasks : List TaskInfo) (t : TaskInfo) : Bool :=
  t.period.nanos ≠ 0 && t.budget.nanos ≠ 0 && g.representable t.period && !listed tasks t.id &&
    decide (load tasks + 1000 * t.budget.nanos / t.period.nanos ≤ g.bound) &&
    (g.resolver t.id).isSome

/-- The tasks after a command, if it is not refused. -/
def Rules.apply (g : Rules) (tasks : List TaskInfo) : Command → Option (List TaskInfo)
  | .register id period budget =>
      if g.admits tasks ⟨id, period, budget⟩ then some (tasks ++ [⟨id, period, budget⟩]) else none
  | .deregister id => if listed tasks id then some (tasks.filter (·.id ≠ id)) else none
  | .yield id => if listed tasks id then some tasks else none
  | .status => some tasks

/-- A ledger before its first line. -/
def empty : Ledger := ⟨[], ⟨0, 0, 0⟩, ""⟩

/-- A command: it is counted, and a report is written. -/
def obey (g : Rules) (l : Ledger) (c : Command) : Ledger :=
  match g.apply l.tasks c with
  | none => { l with summary.rejected := l.summary.rejected + 1 }
  | some tasks =>
      { tasks := tasks
        summary := { l.summary with applied := l.summary.applied + 1 }
        out := if c = .status then l.out ++ Report.text tasks else l.out }

/-- One line: skipped if it is blank or its first character that is not blank is the mark of a
remark. -/
def line (g : Rules) (l : Ledger) (text : List Char) : Ledger :=
  match text.dropWhile Blank.isBlank with
  | [] => l
  | first :: _ =>
      if first = '#' then l
      else
        match Command.parse text with
        | .error _ => { l with summary.malformed := l.summary.malformed + 1 }
        | .ok c => l.obey g c

/-- All lines in order. -/
def run (g : Rules) (lines : List (List Char)) : Ledger := lines.foldl (line g) empty

/-! ### Lines -/

/-- A line is no command exactly when it is none without its blank ends. -/
theorem parse_trim (text : List Char) : Command.parse (Blank.trim text) = Command.parse text := by
  simp only [Command.parse, Blank.trim_trim]

/-- **A line is read without its blank ends.** -/
theorem line_eq (g : Rules) (l : Ledger) (text : List Char) :
    line g l text =
      if Session.isSkipped (Blank.trim text) then l
      else
        match Command.parse (Blank.trim text) with
        | .error _ => { l with summary.malformed := l.summary.malformed + 1 }
        | .ok c => l.obey g c := by
  rw [parse_trim]
  unfold line
  cases hleft : Blank.trimLeft text with
  | nil =>
      have htrim : Blank.trim text = [] := by simp [Blank.trim, hleft, Blank.trimRight]
      rw [show text.dropWhile Blank.isBlank = [] from hleft, htrim]
      rfl
  | cons first rest =>
      rw [show text.dropWhile Blank.isBlank = first :: rest from hleft,
        Blank.trim_of_trimLeft hleft]
      by_cases hmark : first = '#'
      · simp [Session.isSkipped, hmark]
      · simp [Session.isSkipped, hmark]

/-- Two lines without their blank ends are one line. -/
theorem line_congr {text other : List Char} (h : Blank.trim text = Blank.trim other) (g : Rules)
    (l : Ledger) : line g l text = line g l other := by
  rw [line_eq, line_eq, h]

end Ledger

/-! ### The tasks of a registry -/

namespace Registry

theorem listed_infos (r : Registry) (id : TaskId) :
    Ledger.listed r.infos id = r.contains id := by
  simp [Ledger.listed, infos, contains, List.any_map, Function.comp_def]

theorem load_infos (r : Registry) : Ledger.load r.infos = r.load := by
  simp [Ledger.load, infos, load, exactTotal, timings, exactUtilization, Function.comp_def]

theorem infos_eraseP {r : Registry} (h : r.ids.Nodup) (id : TaskId) (held : Bool) :
    (⟨r.entries.eraseP (·.info.id = id), held⟩ : Registry).infos =
      r.infos.filter (·.id ≠ id) := by
  simp only [infos, entries_eraseP h, List.filter_map]
  rfl

end Registry

/-! ### The end that a call comes to -/

/-- The end of a call. -/
structure Fate where
  /-- Whether the call is not refused. -/
  accepted : Bool
  /-- What is registered after it. -/
  tasks : List TaskInfo
deriving DecidableEq

/-- The end of a task's enrolment, for which its number must be free. -/
def Fate.enroll (tasks : List TaskInfo) (t : TaskInfo) : Fate :=
  if Ledger.listed tasks t.id then ⟨false, tasks⟩ else ⟨true, tasks ++ [t]⟩

/-- The end of a command. -/
def Ledger.Rules.fate (g : Ledger.Rules) (tasks : List TaskInfo) (c : Command) : Fate :=
  match g.apply tasks c with
  | none => ⟨false, tasks⟩
  | some next => ⟨true, next⟩

namespace Activity

/-- The end that a call will come to beside these tasks.  Only the calls of a session have one. -/
def fate (g : Ledger.Rules) (tasks : List TaskInfo) : Activity → Option Fate
  | .call (.register t) => some (g.fate tasks (.register t.id t.period t.budget))
  | .call (.deregister id) => some (g.fate tasks (.deregister id))
  | .call (.beginYield id) => some (g.fate tasks (.yield id))
  | .resolve t _ =>
      some (if (g.resolver t.id).isSome then Fate.enroll tasks t else ⟨false, tasks⟩)
  | .enroll e _ => some (Fate.enroll tasks e.info)
  | .armFirst _ _ => some ⟨true, tasks⟩
  | .cancel id => some (g.fate tasks (.deregister id))
  | .awaitCallback id => some (g.fate tasks (.deregister id))
  | .withdraw id => some (g.fate tasks (.deregister id))
  | .strike id _ => some (g.fate tasks (.deregister id))
  | .endJob id => some (g.fate tasks (.yield id))
  | .armNext _ _ => some ⟨true, tasks⟩
  | .reset _ rest => rest.fate g tasks
  | .post _ rest => rest.fate g tasks
  | .answered (.ok (.listed _)) => none
  | .answered (.ok _) => some ⟨true, tasks⟩
  | .answered (.error _) => some ⟨false, tasks⟩
  | _ => none

end Activity

/-! ### Commands beside a registry -/

namespace Ledger.Rules

variable (g : Ledger.Rules) (r : Registry)

/-- A ledger asks for the same as the scheduler. -/
theorem admits_infos (t : TaskInfo) :
    g.admits r.infos t =
      (!t.period.isZero && !t.budget.isZero && g.representable t.period && !r.contains t.id &&
        decide (r.load + exactUtilization t.budget t.period ≤ g.bound) &&
        (g.resolver t.id).isSome) := by
  have hzero : ∀ d : Duration, decide (d.nanos ≠ 0) = !d.isZero := by
    intro d
    cases h : d.isZero <;> simpa [Duration.isZero] using h
  simp only [admits, hzero, Registry.listed_infos, Registry.load_infos, exactUtilization]
  rfl

theorem fate_register (t : TaskInfo) :
    g.fate r.infos (.register t.id t.period t.budget) =
      if g.admits r.infos t then ⟨true, r.infos ++ [t]⟩ else ⟨false, r.infos⟩ := by
  simp only [fate, apply]
  cases g.admits r.infos t <;> rfl

theorem fate_deregister (id : TaskId) :
    g.fate r.infos (.deregister id) =
      if r.contains id then ⟨true, r.infos.filter (·.id ≠ id)⟩ else ⟨false, r.infos⟩ := by
  simp only [fate, apply, Registry.listed_infos]
  cases r.contains id <;> rfl

theorem fate_yield (id : TaskId) :
    g.fate r.infos (.yield id) = ⟨r.contains id, r.infos⟩ := by
  simp only [fate, apply, Registry.listed_infos]
  cases r.contains id <;> rfl

end Ledger.Rules

theorem Fate.enroll_infos (r : Registry) (t : TaskInfo) :
    Fate.enroll r.infos t =
      if r.contains t.id then ⟨false, r.infos⟩ else ⟨true, r.infos ++ [t]⟩ := by
  simp only [Fate.enroll, Registry.listed_infos]

/-! ### Calls of a session -/

/-- What a session's calls rely on: the ledger knows the scheduler's bound, and the scheduler weighs
exactly. -/
structure Ledger.Rules.Serves (g : Ledger.Rules) (s : Scheduler) : Prop where
  bound : g.bound = s.config.utilizationBound.toNat
  small : s.config.utilizationBound.toNat < 2 ^ 64 - 1
  within : s.registry.Within s.config.utilizationBound.toNat

section Serves

variable {g : Ledger.Rules} {s next : Scheduler} {now : Instant}

/-- **A ledger lists a task when the scheduler registers it**: its timing can be served, it may
come, and it is alive. -/
theorem Ledger.Rules.Serves.admits_iff (h : g.Serves s) {t : TaskInfo}
    (hrep : (s.firstRelease? now t.period).isSome = g.representable t.period) :
    g.admits s.registry.infos t = true ↔
      (∃ first, s.checkTiming now t = .ok first) ∧ s.checkCandidate t = .ok () ∧
        (g.resolver t.id).isSome = true := by
  have htiming : (∃ first, s.checkTiming now t = .ok first) ↔
      t.period.isZero = false ∧ t.budget.isZero = false ∧ g.representable t.period = true := by
    rw [← hrep, Option.isSome_iff_exists]
    simp only [Scheduler.checkTiming_eq_ok_iff, exists_and_left]
  rw [htiming, g.admits_infos, h.bound]
  cases hp : t.period.isZero with
  | true => simp
  | false =>
      rw [h.within.checkCandidate_eq h.small hp]
      by_cases hfits : s.registry.load + exactUtilization t.budget t.period ≤
          s.config.utilizationBound.toNat
      · cases s.registry.contains t.id <;> simp [hfits, and_assoc]
      · cases s.registry.contains t.id <;> simp [hfits]

/-- A registration comes to the end that is settled when it begins. -/
theorem Activity.fate_register (h : g.Serves s) (hfree : s.registry.held = false) {t : TaskInfo}
    (hrep : (s.firstRelease? now t.period).isSome = g.representable t.period) :
    (Activity.begin s now (.register t)).2.fate g
        (Activity.begin s now (.register t)).1.registry.infos =
      some (g.fate s.registry.infos (.register t.id t.period t.budget)) := by
  have hiff := h.admits_iff hrep
  rw [Activity.begin_register hfree, g.fate_register]
  cases htiming : s.checkTiming now t with
  | error e =>
      have hno : ¬g.admits s.registry.infos t = true := by
        rw [hiff, htiming]
        simp
      rw [if_neg hno]
      rfl
  | ok first =>
      cases hcandidate : s.checkCandidate t with
      | error e =>
          have hno : ¬g.admits s.registry.infos t = true := by
            rw [hiff, hcandidate]
            simp
          rw [if_neg hno]
          rfl
      | ok _ =>
          -- Whether the task is alive is seen in the next section.
          have hadmits : g.admits s.registry.infos t = (g.resolver t.id).isSome := by
            rw [Bool.eq_iff_iff, hiff]
            simp [htiming, hcandidate]
          have henroll := Fate.enroll_infos s.registry t
          rw [Scheduler.checkCandidate_eq_ok hcandidate] at henroll
          have hfate : ((Activity.resolve t first).fate g s.registry.infos) =
              some (if (g.resolver t.id).isSome then ⟨true, s.registry.infos ++ [t]⟩
                else ⟨false, s.registry.infos⟩) := by
            rw [Activity.fate, henroll]
            rfl
          rw [hadmits]
          exact hfate

/-- A call on behalf of a task that is not registered is refused when it begins. -/
theorem Activity.begin_unlisted (hfree : s.registry.held = false) {id : TaskId}
    (hc : s.registry.contains id = false) {c : Call}
    (hcall : c = .deregister id ∨ c = .beginYield id) :
    Activity.begin s now c = (s, .answered (.error (.notFound id))) := by
  have henter : s.enterFor id = .error (.notFound id) := by
    rw [Scheduler.enterFor_eq hfree, hc]
    rfl
  rcases hcall with rfl | rfl <;> simp only [Activity.begin, henter]

/-- A call comes to the end that is settled when it begins. -/
theorem Activity.fate_begin (h : g.Serves s) (hfree : s.registry.held = false) {c : Call} {f : Fate}
    (hfate : (Activity.call c).fate g s.registry.infos = some f)
    (hrep : ∀ t, c = .register t →
      (s.firstRelease? now t.period).isSome = g.representable t.period) :
    (Activity.begin s now c).2.fate g (Activity.begin s now c).1.registry.infos = some f := by
  rw [← hfate]
  cases c with
  | register t => exact Activity.fate_register h hfree (hrep t rfl)
  | deregister id =>
      cases hc : s.registry.contains id with
      | true =>
          rw [Activity.begin, Scheduler.enterFor_eq hfree, hc]
          rfl
      | false =>
          rw [Activity.begin_unlisted hfree hc (Or.inl rfl), Activity.fate, Activity.fate,
            g.fate_deregister, hc]
          rfl
  | beginYield id =>
      cases hc : s.registry.contains id with
      | true =>
          rw [Activity.begin, Scheduler.enterFor_eq hfree, hc]
          rfl
      | false =>
          rw [Activity.begin_unlisted hfree hc (Or.inr rfl), Activity.fate, Activity.fate,
            g.fate_yield, hc]
  | _ => cases hfate

/-- A task that is resolved will be enrolled, and the call of one that is not comes to nothing. -/
theorem Activity.fate_resolve {t : TaskInfo} {first : Instant} {rest : Activity}
    (hstep : (Activity.resolve t first).step s g.resolver now = some (next, rest)) :
    rest.fate g next.registry.infos = (Activity.resolve t first).fate g s.registry.infos := by
  simp only [Activity.step, Scheduler.resolve] at hstep
  rw [Activity.fate]
  cases hresolve : g.resolver t.id with
  | none =>
      rw [hresolve] at hstep
      cases hstep
      rfl
  | some handle =>
      rw [hresolve] at hstep
      cases hstep
      rfl

/-- A task is enrolled at the end of the registry, unless its number is taken. -/
theorem Activity.fate_enroll {e : RegistryEntry} {first : Instant} {rest : Activity}
    (hstep : (Activity.enroll e first).step s g.resolver now = some (next, rest)) :
    rest.fate g next.registry.infos = (Activity.enroll e first).fate g s.registry.infos := by
  simp only [Activity.step, Scheduler.enroll, Registry.insert] at hstep
  rw [Activity.fate, Fate.enroll_infos]
  cases hc : s.registry.contains e.info.id with
  | true =>
      rw [hc] at hstep
      cases hstep
      rfl
  | false =>
      rw [hc] at hstep
      cases hstep
      simp [Activity.fate, Scheduler.withSchedule, Registry.infos]

/-- A task that is struck out was on the ledger's list and is no more. -/
theorem Activity.fate_strike (hdistinct : s.registry.ids.Nodup) {id : TaskId} {freed : Bool}
    {rest : Activity} (hstep : (Activity.strike id freed).step s g.resolver now = some (next, rest)) :
    rest.fate g next.registry.infos = (Activity.strike id freed).fate g s.registry.infos := by
  simp only [Activity.step, Scheduler.strike, Registry.remove] at hstep
  rw [Activity.fate, g.fate_deregister]
  cases hfind : s.registry.find? id with
  | none =>
      rw [hfind] at hstep
      cases hstep
      rw [Registry.find?_eq_none_iff.1 hfind]
      rfl
  | some e =>
      rw [hfind] at hstep
      cases hstep
      rw [Registry.contains_of_find? hfind, ← Registry.infos_eraseP hdistinct id false]
      cases freed <;> rfl

/-- A yield of a registered task ends its job, whatever the task's state. -/
theorem Activity.fate_endJob {id : TaskId} {rest : Activity} (hfits : (Activity.endJob id).Fits s)
    (hstep : (Activity.endJob id).step s g.resolver now = some (next, rest)) :
    rest.fate g next.registry.infos = (Activity.endJob id).fate g s.registry.infos := by
  have hc := hfits.listed id rfl
  obtain ⟨t, ht⟩ := hfits.agrees.exists_task? hc
  obtain ⟨y, ended, hend⟩ := Schedule.exists_endJob ht now
  simp only [Activity.step, Scheduler.endJob, hend] at hstep
  cases hstep
  rw [Activity.fate, Activity.fate, g.fate_yield, hc]
  rfl

/-- What a yield does once the job has ended leaves the registered tasks alone. -/
theorem Activity.fate_armNext (id : TaskId) (y : YieldResult) :
    (Activity.afterYield id y).fate g (s.armAt id y.armAt).leave.registry.infos =
      (Activity.armNext id y).fate g s.registry.infos := by
  have hinfos : (s.armAt id y.armAt).leave.registry.infos = s.registry.infos := by
    cases y.armAt <;> rfl
  rw [hinfos]
  unfold Activity.afterYield
  cases y.freedSlot <;> cases Scheduler.endedJob y.outcome <;> rfl

/-- **No section of a call changes the end that it comes to.** -/
theorem Activity.fate_step (h : g.Serves s) {a rest : Activity} (hy : System.Kept ⟨s, [a]⟩)
    {f : Fate} (hfate : a.fate g s.registry.infos = some f)
    (hrep : ∀ t, a = .call (.register t) →
      (s.firstRelease? now t.period).isSome = g.representable t.period)
    (hstep : a.step s g.resolver now = some (next, rest)) :
    rest.fate g next.registry.infos = some f := by
  have hfits : a.holds = true → a.Fits s := hy.fits a List.mem_cons_self
  cases a with
  | call c =>
      have hfree : s.registry.held = false := by
        have hcount := hy.exclusive
        cases hheld : s.registry.held with
        | false => rfl
        | true =>
            rw [hheld] at hcount
            cases hcount
      have hbegin : Activity.begin s now c = (next, rest) := Option.some.inj hstep
      have hends := Activity.fate_begin h hfree hfate fun t ht => hrep t (congrArg Activity.call ht)
      rwa [hbegin] at hends
  | resolve t first => exact (Activity.fate_resolve hstep).trans hfate
  | enroll e first => exact (Activity.fate_enroll hstep).trans hfate
  | awaitCallback id =>
      simp only [Activity.step] at hstep
      split at hstep <;> cases hstep
      exact hfate
  | strike id freed => exact (Activity.fate_strike (hfits rfl).agrees.distinct hstep).trans hfate
  | endJob id => exact (Activity.fate_endJob (hfits rfl) hstep).trans hfate
  | armNext id y =>
      cases hstep
      exact (Activity.fate_armNext id y).trans hfate
  | armFirst id first =>
      cases hstep
      exact hfate
  | cancel id =>
      cases hstep
      exact hfate
  | withdraw id =>
      cases hstep
      exact hfate
  | reset handle rest =>
      cases hstep
      exact hfate
  | post wake rest =>
      cases hstep
      exact hfate
  | answered x => cases hstep
  | _ => cases hfate

end Serves

end RateMonotonic
