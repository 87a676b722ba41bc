/-
**A live session comes to its end.**

A session goes on section by section and line by line, so only so many beats are its own.  It waits
for one thing only: a deregistration waits for the worker if the worker is in a callback of the task
that is to go.  The callback is at its end after three steps, and the worker cannot take a timer of
the task again, for the timer has been cancelled.  So if session and worker are never left out for
good, the lines come to an end, whatever the loop does.

Main definitions:
* `Activity.sections`, `WorkerState.remaining` — how much of a call, or of a callback, remains;
* `LiveSession.waits`, `LiveSession.rank` — whether the session waits, and how much remains in all;
* `LiveSession.along` — a session along an endless schedule of beats;
* `Beat.Fair` — a schedule that leaves neither session nor worker out.

Main results:
* `LiveSession.Steady.beat_progress` — **a beat for which the session waits brings it nearer to its
  end**, and no other beat takes it away from there;
* `LiveSession.Steady.exists_ended` — **along a fair schedule a session ends.**
-/

import RateMonotonic.Proofs.LiveSessions

set_option relaxedAutoImplicit false
set_option autoImplicit false

namespace RateMonotonic

/-! ### How much remains -/

/-- A session's call takes fewer sections than this, counting the note of its answer. -/
def Activity.sections : Activity → ℕ
  | .call _ => 9
  | .cancel _ => 8
  | .awaitCallback _ => 7
  | .withdraw _ => 6
  | .strike _ _ => 5
  | .endJob _ => 5
  | .resolve _ _ => 4
  | .armNext _ _ => 4
  | .enroll _ _ => 3
  | .armFirst _ _ => 2
  | .reset _ rest => rest.sections + 1
  | .post _ rest => rest.sections + 1
  | .answered _ => 1
  | _ => 0

/-- How many steps the worker takes until it waits. -/
def WorkerState.remaining : WorkerState → ℕ
  | .releasing _ => 3
  | .announcing _ => 2
  | .finishing => 1
  | .idle => 0

/-- A yield ends in three sections at most. -/
theorem Activity.sections_afterYield (id : TaskId) (y : YieldResult) :
    (Activity.afterYield id y).sections ≤ 3 := by
  unfold Activity.afterYield
  cases y.freedSlot <;> cases Scheduler.endedJob y.outcome <;> simp [Activity.sections]

/-- **With every section, less of a session's call remains.** -/
theorem Activity.Advances.sections {g : Ledger.Rules} {tasks : List TaskInfo} {s next : Scheduler}
    {a rest : Activity} {f : Fate} (h : Activity.Advances s a next rest)
    (hfate : a.fate g tasks = some f) : rest.sections < a.sections := by
  cases h with
  | start => cases hfate
  | stop => cases hfate
  | release => cases hfate
  | started => cases hfate
  | startLoop _ => cases hfate
  | halt => cases hfate
  | unjoined => cases hfate
  | join _ => cases hfate
  | shutTimers => cases hfate
  | awaitWorker => cases hfate
  | @strike _ freed _ _ _ => cases freed <;> simp [Activity.sections]
  | @armNext id y _ _ =>
      have hle := Activity.sections_afterYield id y
      rw [Activity.sections]
      omega
  | _ => simp [Activity.sections]

/-- A session's call takes its next section, unless it waits for a callback. -/
theorem Activity.awaits_of_step {g : Ledger.Rules} {tasks : List TaskInfo} {s : Scheduler}
    {resolver : Resolver} {now : Instant} {a : Activity} {f : Fate}
    (hfate : a.fate g tasks = some f) (hbusy : ∀ x, a ≠ .answered x)
    (hstep : a.step s resolver now = none) :
    ∃ id, a = .awaitCallback id ∧ s.timers.inFlight = some id := by
  cases a with
  | awaitCallback id =>
      simp only [Activity.step] at hstep
      split at hstep
      · cases hstep
      · next hflight => exact ⟨id, rfl, by simpa [Timers.cancelMayReturn] using hflight⟩
  | answered x => exact absurd rfl (hbusy x)
  | resolve t first =>
      simp only [Activity.step] at hstep
      split at hstep <;> cases hstep
  | enroll e first =>
      simp only [Activity.step] at hstep
      split at hstep <;> cases hstep
  | strike id freed =>
      simp only [Activity.step] at hstep
      split at hstep <;> cases hstep
  | endJob id =>
      simp only [Activity.step] at hstep
      split at hstep <;> cases hstep
  | _ => first | cases hstep | cases hfate

/-- A worker in a callback steps on, and less of the callback remains. -/
theorem Scheduler.exists_workerStep {s : Scheduler} (h : s.worker ≠ .idle) (now : Instant) :
    ∃ next, s.workerStep now = some next ∧ next.worker.remaining < s.worker.remaining := by
  unfold Scheduler.workerStep
  cases hworker : s.worker with
  | idle => exact absurd hworker h
  | releasing id =>
      dsimp only
      split
      · exact ⟨_, rfl, Nat.lt_succ_self 2⟩
      · exact ⟨_, rfl, Nat.lt_of_succ_lt (Nat.lt_succ_self 2)⟩
  | announcing id => exact ⟨_, rfl, Nat.lt_succ_self 1⟩
  | finishing => exact ⟨_, rfl, Nat.lt_succ_self 0⟩

namespace LiveSession

/-- Whether the session waits for a callback. -/
def waits (v : LiveSession) : Bool :=
  match v.call with
  | some (.awaitCallback id) => !v.session.scheduler.timers.cancelMayReturn id
  | _ => false

/-- How many beats the session still has to take itself, or more. -/
def work (v : LiveSession) : ℕ := 10 * v.lines.length + (v.call.map Activity.sections).getD 0

/-- How much remains in all: a beat of the session counts for more than a callback. -/
def rank (v : LiveSession) : ℕ :=
  4 * v.work + if v.waits then v.session.scheduler.worker.remaining else 0

variable {g : Ledger.Rules} {c : Config} {v w : LiveSession} {now : Instant}

theorem waits_iff :
    v.waits = true ↔ ∃ id, v.call = some (.awaitCallback id) ∧
      v.session.scheduler.timers.inFlight = some id := by
  unfold waits
  split
  · next id hcall => simp [hcall, Timers.cancelMayReturn]
  · next hcall =>
      refine iff_of_false (by simp) ?_
      rintro ⟨id, hcall', -⟩
      exact hcall id hcall'

theorem four_mul_work_le_rank (v : LiveSession) : 4 * v.work ≤ v.rank := by
  unfold rank
  omega

theorem rank_le (v : LiveSession) : v.rank ≤ 4 * v.work + 3 := by
  unfold rank
  split
  · cases v.session.scheduler.worker <;> simp [WorkerState.remaining]
  · omega

/-- Less work makes a lower rank. -/
theorem rank_lt_of_work (h : w.work < v.work) : w.rank < v.rank := by
  have hw := rank_le w
  have hv := four_mul_work_le_rank v
  omega

/-! ### Beats of the session -/

/-- A session goes on, unless it is at its end or has to wait. -/
theorem Steady.work_goesOn (h : v.Steady g c) (hw : Continues g now v w) :
    w.work < v.work ∨ (w = v ∧ (v.ended = true ∨ v.waits = true)) := by
  cases hw with
  | stay idle waits =>
      refine Or.inr ⟨rfl, ?_⟩
      cases hcall : v.call with
      | none => exact Or.inl (by simp [ended, hcall, idle hcall])
      | some a =>
          obtain ⟨f, hf⟩ := h.fated a hcall
          obtain ⟨hbusy, hstep⟩ := waits a hcall
          obtain ⟨id, rfl, hflight⟩ := Activity.awaits_of_step hf hbusy hstep
          exact Or.inr (waits_iff.2 ⟨id, hcall, hflight⟩)
  | pass idle lines _ _ _ =>
      refine Or.inl ?_
      simp only [work, idle, lines, List.length_cons, Option.map_none, Option.getD_none]
      omega
  | begin idle lines _ _ _ =>
      refine Or.inl ?_
      simp only [work, idle, lines, List.length_cons, Option.map_none, Option.getD_none,
        Option.map_some, Option.getD_some, Activity.sections]
      omega
  | @advance a rest next call step =>
      obtain ⟨f, hf⟩ := h.fated a call
      have hproper := h.system.kept.proper a (by simp [LiveSession.system, call])
      have hless := (Activity.advances_of_step hproper step).sections hf
      refine Or.inl ?_
      simp only [work, call, Option.map_some, Option.getD_some]
      exact Nat.add_lt_add_left hless _
  | note call =>
      refine Or.inl ?_
      simp only [work, call, Option.map_none, Option.getD_none, Option.map_some, Option.getD_some,
        Activity.sections]
      omega

/-! ### Beats of the threads -/

/-- The callback that a session waits for comes nearer to its end with every step of the worker. -/
theorem Steady.rank_worker (h : v.Steady g c) (hwaits : v.waits = true) (now : Instant) :
    (v.beat g.resolver none (.worker now)).rank < v.rank := by
  obtain ⟨id, -, hflight⟩ := waits_iff.1 hwaits
  have hworker : v.session.scheduler.worker ≠ .idle := by
    intro hidle
    have hnone : v.session.scheduler.timers.inFlight = none := h.system.resting hidle
    rw [hnone] at hflight
    cases hflight
  obtain ⟨next, hstep, hless⟩ := Scheduler.exists_workerStep hworker now
  have hbeat : v.beat g.resolver none (.worker now) = v.withScheduler next := by
    rw [beat, hstep]
    rfl
  have hwork : (v.withScheduler next).work = v.work := rfl
  have hnext : (v.withScheduler next).session.scheduler = next := rfl
  rw [hbeat, rank, rank, hwaits, hwork, hnext, if_pos rfl]
  split
  · omega
  · omega

/-- A session that need not wait does not come to wait by a step of the worker: the timer of the
task that is to go has been cancelled. -/
theorem Steady.waits_worker (h : v.Steady g c) (hwaits : v.waits = false) (now : Instant) :
    (v.beat g.resolver none (.worker now)).waits = false := by
  rw [← Bool.not_eq_true, waits_iff]
  rintro ⟨id, hcall, hflight⟩
  have hcall' : v.call = some (.awaitCallback id) := hcall
  have hawaits := h.system.timed.awaits (.awaitCallback id) (by simp [LiveSession.system, hcall'])
  have hnot : v.session.scheduler.timers.inFlight ≠ some id := by
    intro hflight'
    rw [waits_iff.2 ⟨id, hcall', hflight'⟩] at hwaits
    cases hwaits
  cases hstep : v.session.scheduler.workerStep now with
  | none =>
      rw [beat, hstep] at hflight
      exact hnot hflight
  | some next =>
      rw [beat, hstep] at hflight
      have hsteps := Scheduler.workerSteps_of_workerStep hstep
      cases hsteps with
      | @take key _ _ _ polled =>
          obtain ⟨-, -, hkey, ⟨d, hd, -⟩, -⟩ := Timers.poll_eq_some polled
          have hid : key = id := Option.some.inj (hkey.symm.trans hflight)
          rw [hid] at hd
          cases hawaits.1.symm.trans hd
      | finish _ => cases hflight
      | _ => exact hnot hflight

/-- What the session waits for, and how much remains of it, is seen from its calls and lines, the
timers and the worker. -/
theorem rank_congr (hcall : w.call = v.call) (hlines : w.lines = v.lines)
    (htimers : w.session.scheduler.timers = v.session.scheduler.timers)
    (hworker : w.session.scheduler.worker = v.session.scheduler.worker) :
    w.rank = v.rank ∧ w.waits = v.waits := by
  have hwaits : w.waits = v.waits := by rw [waits, waits, hcall, htimers]
  have hwork : w.work = v.work := by rw [work, work, hcall, hlines]
  refine ⟨?_, hwaits⟩
  rw [rank, rank, hwaits, hwork, hworker]

/-- A step of the loop concerns no wait. -/
theorem rank_loop (v : LiveSession) (resolver : Resolver) :
    (v.beat resolver none .loop).rank = v.rank ∧ (v.beat resolver none .loop).waits = v.waits := by
  cases hstep : v.session.scheduler.loopStep with
  | none =>
      rw [beat, hstep]
      exact ⟨rfl, rfl⟩
  | some next =>
      rw [beat, hstep]
      have hsteps := Scheduler.loopSteps_of_loopStep hstep
      exact rank_congr rfl rfl (by cases hsteps <;> rfl) (by cases hsteps <;> rfl)

/-! ### Along a schedule -/

/-- Whether a beat is the one that the session needs next: its own, or one of the worker. -/
def Needs (v : LiveSession) : Beat → Prop
  | .client _ => v.waits = false
  | .loop => False
  | .worker _ => v.waits = true

theorem Needs.congr {b : Beat} (h : v.Needs b) (hwaits : w.waits = v.waits) : w.Needs b := by
  cases b with
  | client now => exact hwaits.trans h
  | loop => exact h
  | worker now => exact hwaits.trans h

/-- **A beat that the session needs** brings it nearer to its end, and any other beat leaves it
where it is, or does so too. -/
theorem Steady.beat_progress (h : v.Steady g c) (hended : v.ended = false) (b : Beat) :
    (v.beat g.resolver none b).rank < v.rank ∨
      (¬v.Needs b ∧ (v.beat g.resolver none b).rank = v.rank ∧
        (v.beat g.resolver none b).waits = v.waits) := by
  cases b with
  | client now =>
      rcases h.work_goesOn (h.continues now) with hless | ⟨hstay, hend | hwaits⟩
      · exact Or.inl (rank_lt_of_work hless)
      · rw [hend] at hended
        cases hended
      · refine Or.inr ⟨by simp [Needs, hwaits], ?_⟩
        rw [beat, hstay]
        exact ⟨rfl, rfl⟩
  | loop => exact Or.inr ⟨id, rank_loop v g.resolver⟩
  | worker now =>
      cases hwaits : v.waits with
      | true => exact Or.inl (h.rank_worker hwaits now)
      | false =>
          have hnext := h.waits_worker hwaits now
          refine Or.inr ⟨by simp [Needs, hwaits], ?_, hnext⟩
          rw [rank, rank, hwaits, hnext]
          rfl

/-- A session along an endless schedule. -/
def along (resolver : Resolver) (room : Option ℕ) (v : LiveSession) (schedule : ℕ → Beat) (n : ℕ) :
    LiveSession := v.after resolver room ((List.range n).map schedule)

theorem along_succ (resolver : Resolver) (room : Option ℕ) (v : LiveSession) (schedule : ℕ → Beat)
    (n : ℕ) :
    v.along resolver room schedule (n + 1) =
      (v.along resolver room schedule n).beat resolver room (schedule n) := by
  simp [along, after, List.range_succ]

/-- A session at its end stays there. -/
theorem ended_beat {resolver : Resolver} {room : Option ℕ} (h : v.ended = true) (b : Beat) :
    (v.beat resolver room b).ended = true := by
  obtain ⟨hcall, hlines⟩ : v.call = none ∧ v.lines = [] := by simpa [ended] using h
  cases b with
  | client now =>
      rw [beat, goOn, hcall, hlines]
      exact h
  | loop => exact h
  | worker now => exact h

theorem ended_along {resolver : Resolver} {room : Option ℕ} {schedule : ℕ → Beat} {n m : ℕ}
    (h : (v.along resolver room schedule n).ended = true) (hm : n ≤ m) :
    (v.along resolver room schedule m).ended = true := by
  induction m, hm using Nat.le_induction with
  | base => exact h
  | succ m _ ih =>
      rw [along_succ]
      exact ended_beat ih (schedule m)

end LiveSession

/-- A schedule that leaves out neither the session nor the worker for good. -/
structure Beat.Fair (schedule : ℕ → Beat) : Prop where
  client : ∀ n, ∃ m, n ≤ m ∧ ∃ now, schedule m = .client now
  worker : ∀ n, ∃ m, n ≤ m ∧ ∃ now, schedule m = .worker now

/-- Session, loop and worker take turns at one instant. -/
def Beat.inTurn (now : Instant) (n : ℕ) : Beat :=
  match n % 3 with
  | 0 => .client now
  | 1 => .loop
  | _ => .worker now

theorem Beat.fair_inTurn (now : Instant) : Beat.Fair (Beat.inTurn now) where
  client := fun n => ⟨3 * n, by omega, now, by simp [Beat.inTurn]⟩
  worker := fun n => ⟨3 * n + 2, by omega, now, by simp [Beat.inTurn]⟩

namespace LiveSession

/-- The beat that a session needs comes sooner or later. -/
theorem exists_needs {schedule : ℕ → Beat} (hfair : Beat.Fair schedule) (v : LiveSession) (n : ℕ) :
    ∃ m, n ≤ m ∧ v.Needs (schedule m) := by
  cases hwaits : v.waits with
  | true =>
      obtain ⟨m, hm, now, hbeat⟩ := hfair.worker n
      exact ⟨m, hm, by simp [hbeat, Needs, hwaits]⟩
  | false =>
      obtain ⟨m, hm, now, hbeat⟩ := hfair.client n
      exact ⟨m, hm, by simp [hbeat, Needs, hwaits]⟩

section Along

variable {g : Ledger.Rules} {c : Config} {v : LiveSession} {schedule : ℕ → Beat}
  (hsteady : ∀ n, (v.along g.resolver none schedule n).Steady g c)

include hsteady

/-- Along a fair schedule a session that is not at its end comes nearer to it. -/
theorem exists_rank_lt (hfair : Beat.Fair schedule) (n : ℕ) :
    ∃ m, (v.along g.resolver none schedule m).ended = true ∨
      (v.along g.resolver none schedule m).rank < (v.along g.resolver none schedule n).rank := by
  by_contra hno
  simp only [not_exists, not_or, Bool.not_eq_true, Nat.not_lt] at hno
  -- Nothing changes for the session until the beat comes that it needs.
  have hsame : ∀ m, n ≤ m → (v.along g.resolver none schedule m).rank =
      (v.along g.resolver none schedule n).rank ∧ (v.along g.resolver none schedule m).waits =
        (v.along g.resolver none schedule n).waits := by
    intro m hm
    induction m, hm using Nat.le_induction with
    | base => exact ⟨rfl, rfl⟩
    | succ m hm ih =>
        have hle := (hno (m + 1)).2
        rw [along_succ] at hle ⊢
        rcases (hsteady m).beat_progress (hno m).1 (schedule m) with hless | ⟨-, hrank, hwaits⟩
        · omega
        · exact ⟨hrank.trans ih.1, hwaits.trans ih.2⟩
  obtain ⟨m, hm, hneeds⟩ := exists_needs hfair (v.along g.resolver none schedule n) n
  obtain ⟨hrank, hwaits⟩ := hsame m hm
  have hle := (hno (m + 1)).2
  rw [along_succ] at hle
  rcases (hsteady m).beat_progress (hno m).1 (schedule m) with hless | ⟨hnot, -, -⟩
  · omega
  · exact hnot (hneeds.congr hwaits)

/-- **Along a fair schedule a session ends.** -/
theorem exists_ended (hfair : Beat.Fair schedule) :
    ∃ n, ∀ m, n ≤ m → (v.along g.resolver none schedule m).ended = true := by
  -- By induction on what remains at some point of the schedule.
  have hgo : ∀ r n, (v.along g.resolver none schedule n).rank ≤ r →
      ∃ m, (v.along g.resolver none schedule m).ended = true := by
    intro r
    induction r with
    | zero =>
        intro n hr
        obtain ⟨m, hend | hless⟩ := exists_rank_lt hsteady hfair n
        · exact ⟨m, hend⟩
        · omega
    | succ r ih =>
        intro n hr
        obtain ⟨m, hend | hless⟩ := exists_rank_lt hsteady hfair n
        · exact ⟨m, hend⟩
        · exact ih m (by omega)
  obtain ⟨n, hn⟩ := hgo _ 0 le_rfl
  exact ⟨n, fun m hm => ended_along hn hm⟩

end Along

end LiveSession

end RateMonotonic
