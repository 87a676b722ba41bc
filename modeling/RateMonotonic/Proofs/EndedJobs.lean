/-
**A yield ends exactly the caller's started job.**

A task has a started job if it holds the slot, or if it waits to go on after a preemption.  A yield
of any other task is refused and leaves no trace.  A yield of a started job depends on two things
only: on the boundary of its task and on the clock.  Before the boundary the task sleeps until it;
from the boundary on the next job is queued behind all of at most the task's period.  Where the task
stood, in the slot or anywhere in the queue, makes no difference to what becomes of it, and nobody
else notices more than that the slot is free.

Main definitions:
* `Row.JoinsBehind` — a task has joined a row behind all of at most its period;
* `Task.SameJob` — two records that differ at most in who has the slot;
* `Schedule.EndsJob` — what a yield of a started job does, to its task and to all others;
* `Schedule.jobEnd` — the part of it that concerns the task itself;
* `Transition.Spares` — a transition that lets a task's job go on;
* `Scheduler.EndsStartedJobs` — what can be relied on when a task yields.

Main results:
* `Schedule.Started.endsJob` — **a started job ends at its boundary**;
* `Schedule.Started.evaluate` — an evaluation keeps a started job, whether the slot changes hands or
  not;
* `Scheduler.Consistent.started_take` — so does every transition that lets it go on;
* `Scheduler.endsStartedJobs_after` — yields end exactly started jobs, in every state of a run.
-/

import RateMonotonic.Proofs.StartedJobs

set_option relaxedAutoImplicit false
set_option autoImplicit false

namespace RateMonotonic

/-! ### Joining a row -/

namespace Row

variable {x : TaskId × Duration} {l next : Row}

/-- A task has joined a row behind all of at most its period, and ahead of all others. -/
def JoinsBehind (x : TaskId × Duration) (l next : Row) : Prop :=
  ∃ front rest, l = front ++ rest ∧ next = front ++ x :: rest ∧ (∀ y ∈ front, y.2 ≤ x.2) ∧
    ∀ y ∈ rest, x.2 < y.2

theorem joinsBehind_behind (h : l.Ascending) (x : TaskId × Duration) :
    JoinsBehind x l (behind x l) := by
  induction l with
  | nil => exact ⟨[], [], rfl, rfl, by simp, by simp⟩
  | cons z l ih =>
      obtain ⟨hz, hl⟩ := List.pairwise_cons.1 h
      simp only [behind, List.orderedInsert_cons] at ih ⊢
      split
      · next hlt =>
          refine ⟨[], z :: l, rfl, rfl, by simp, fun y hy => ?_⟩
          rcases List.mem_cons.1 hy with rfl | hy
          · exact hlt
          · exact Nat.lt_of_lt_of_le hlt (hz y hy)
      · next hle =>
          obtain ⟨front, rest, hold, hnew, hfront, hrest⟩ := ih hl
          refine ⟨z :: front, rest, by rw [hold]; rfl, by rw [hnew]; rfl, fun y hy => ?_, hrest⟩
          rcases List.mem_cons.1 hy with rfl | hy
          · exact Nat.le_of_not_lt hle
          · exact hfront y hy

/-- Without the task, the row is the one that it joined. -/
theorem JoinsBehind.without_eq (h : JoinsBehind x l next) : without x.1 next = without x.1 l := by
  obtain ⟨front, rest, rfl, rfl, -, -⟩ := h
  simp [without]

theorem without_without (id : TaskId) (l : Row) : without id (without id l) = without id l := by
  simp [without]

end Row

/-! ### Records of a started job -/

namespace Task

variable {t u v : Task}

/-- Two records tell the same job if they differ at most in whether it runs or waits. -/
structure SameJob (t u : Task) : Prop where
  /-- The task was registered once. -/
  entry : u.entry = t.entry
  /-- The job has the same boundary. -/
  boundary : u.nextRelease = t.nextRelease
  /-- The job has been dispatched in both, or in neither. -/
  pending : u.jobPending = t.jobPending

theorem SameJob.refl (t : Task) : t.SameJob t := ⟨rfl, rfl, rfl⟩

theorem SameJob.trans (h : t.SameJob u) (h' : u.SameJob v) : t.SameJob v :=
  ⟨h'.entry.trans h.entry, h'.boundary.trans h.boundary, h'.pending.trans h.pending⟩

theorem sameJob_preempt (t : Task) : t.SameJob t.preempt := ⟨rfl, rfl, rfl⟩

theorem sameJob_resume (t : Task) : t.SameJob t.resume := ⟨rfl, rfl, rfl⟩

/-- A job that is granted the slot again is still the same. -/
theorem sameJob_grant (h : t.jobPending = false) : t.SameJob t.grant := by
  refine ⟨entry_grant t, ?_, ?_⟩
  · rw [nextRelease_grant, h]
    rfl
  · rw [jobPending_grant, h]

/-- What becomes of a task whose job ends: the outcome, the timer to arm, and the record. -/
def ended (t : Task) (now : Instant) : YieldOutcome × Option Instant × Option Task :=
  match t.timeToRelease now with
  | some remaining => (.sleeping remaining, some t.nextRelease, some t.sleep)
  | none => (.requeued, none, some t.requeue)

/-- The end of a job is the same whether it ran or waited. -/
theorem SameJob.ended_eq (h : t.SameJob u) (now : Instant) : u.ended now = t.ended now := by
  obtain ⟨hentry, hboundary, hpending⟩ := h
  cases t
  cases u
  simp only [Task.entry, Task.info, RegistryEntry.mk.injEq, TaskInfo.mk.injEq] at hentry
  obtain ⟨⟨rfl, rfl, rfl⟩, rfl⟩ := hentry
  cases hboundary
  cases hpending
  rfl

end Task

namespace Schedule

variable {s next : Schedule} {n : ℕ} {id j : TaskId} {t u : Task} {now : Instant}

/-! ### Started jobs -/

/-- A started job runs in the slot or waits in the queue. -/
theorem Started.state_cases (h : s.Started id t) (hs : s.Sound) :
    (t.state = .running ∧ s.current = some id) ∨
      (t.state = .ready ∧ s.current ≠ some id ∧ t.jobPending = false) := by
  by_cases hc : s.current = some id
  · obtain ⟨u, hu, hrun⟩ := hs.holds id hc
    rw [h.1] at hu
    cases hu
    exact Or.inl ⟨hrun, hc⟩
  · exact Or.inr ⟨(h.2.resolve_left hc).1, hc, (h.2.resolve_left hc).2⟩

/-- **A job is in progress exactly if it has been started.** -/
theorem Sound.inProgress_iff (hs : s.Sound) (ht : s.task? id = some t) :
    s.inProgress id t = true ↔ s.Started id t := by
  constructor
  · intro h
    refine ⟨ht, ?_⟩
    cases hstate : t.state with
    | running => exact Or.inl (by simpa [inProgress, hstate, holdsSlot] using h)
    | ready => exact Or.inr ⟨rfl, by simpa [inProgress, hstate] using h⟩
    | sleeping => simp [inProgress, hstate] at h
  · intro h
    rcases h.state_cases hs with ⟨hrun, hc⟩ | ⟨hready, -, hpending⟩
    · simp [inProgress, hrun, holdsSlot, hc]
    · simp [inProgress, hready, hpending]

theorem Started.inProgress (h : s.Started id t) (hs : s.Sound) : s.inProgress id t = true :=
  (hs.inProgress_iff h.1).2 h

theorem Started.jobPending_eq (h : s.Started id t) (hs : s.Sound) : t.jobPending = false :=
  hs.jobPending_of_inProgress h.1 (h.inProgress hs)

/-! ### The end of a job -/

/-- **What a yield of a started job does.** -/
structure EndsJob (s : Schedule) (id : TaskId) (t : Task) (now : Instant) (y : YieldResult)
    (next : Schedule) : Prop where
  /-- Before the boundary, the task leaves the queue and sleeps until the boundary. -/
  sleeps : now < t.nextRelease → ∃ remaining, y.outcome = .sleeping remaining ∧
    0 < remaining.nanos ∧ now.add? remaining = some t.nextRelease ∧ y.armAt = some t.nextRelease ∧
      next.task? id = some { t with state := .sleeping, resumed := false } ∧
        next.ready.row = s.ready.row.without id
  /-- From the boundary on, the next job of the task is queued behind all of at most its period. -/
  requeues : ¬ now < t.nextRelease → y.outcome = .requeued ∧ y.armAt = none ∧
    next.task? id = some { t with state := .ready, jobPending := true, resumed := false } ∧
      Row.JoinsBehind (id, t.period) (s.ready.row.without id) next.ready.row
  /-- The answer names the handle of the task. -/
  handle : y.handle = t.handle
  /-- The answer says that the slot is free if the task held it. -/
  freed : y.freedSlot = true ↔ s.current = some id
  /-- The slot is free if the task held it, and stays with its holder if not. -/
  slot : next.current = if s.current = some id then none else s.current
  /-- No boundary moves. -/
  boundaries : ∀ j, (next.task? j).map Task.nextRelease = (s.task? j).map Task.nextRelease
  /-- The other tasks have the records that they had. -/
  others : ∀ j, j ≠ id → next.task? j = s.task? j
  /-- The other tasks stand in the queue as they stood. -/
  order : next.ready.row.without id = s.ready.row.without id
  /-- A yield does not end scheduling. -/
  stopped : next.stopped = s.stopped

/-- Storing a record with the boundary of the old one moves no boundary. -/
theorem boundaries_insert {q : ReadyQueue} {c : Option TaskId} (ht : s.task? id = some t)
    (hu : u.nextRelease = t.nextRelease) (j : TaskId) :
    (({ s with tasks := s.tasks.insert id u, ready := q, current := c } : Schedule).task? j).map
      Task.nextRelease = (s.task? j).map Task.nextRelease := by
  rw [task?_insert]
  split
  · next hj =>
      subst hj
      simp [ht, hu]
  · rfl

theorem slotWithout_eq (s : Schedule) (id : TaskId) :
    s.slotWithout id = if s.current = some id then none else s.current := by
  simp [slotWithout, holdsSlot]

/-- A requeued task joins the row of all others. -/
theorem Complete.joinsBehind (hn : s.Complete n) (hs : s.Sound) (id : TaskId) (p : Duration) :
    Row.JoinsBehind (id, p) (s.ready.row.without id) ((s.ready.remove id).insert id p).row := by
  have hascending := (hs.order.remove id).ascending
  have hnot : id ∉ (s.ready.remove id).ids := by simp [ReadyQueue.ids_remove]
  rw [ReadyQueue.row_remove] at hascending
  rw [(hn.numbered.remove id).row_insert hnot, ReadyQueue.row_remove]
  exact Row.joinsBehind_behind hascending (id, p)

/-- A yield of a started job puts its task to sleep or queues its next job. -/
theorem Started.yields_cases (h : s.Started id t) (hs : s.Sound) {y : YieldResult}
    (hy : s.Yields id now y next) :
    (∃ remaining, t.timeToRelease now = some remaining ∧
      y = ⟨.sleeping remaining, t.handle, some t.nextRelease, s.holdsSlot id⟩ ∧
      next = { s with
        tasks := s.tasks.insert id t.sleep
        ready := s.ready.remove id
        current := s.slotWithout id }) ∨
    (t.timeToRelease now = none ∧
      y = ⟨.requeued, t.handle, none, s.holdsSlot id⟩ ∧
      next = { s with
        tasks := s.tasks.insert id t.requeue
        ready := (s.ready.remove id).insert id t.period
        current := s.slotWithout id }) := by
  cases hy with
  | nothing task idle =>
      rw [h.1] at task
      cases task
      rw [h.inProgress hs] at idle
      cases idle
  | sleep task _ early =>
      rw [h.1] at task
      cases task
      exact Or.inl ⟨_, early, rfl, rfl⟩
  | requeue task _ late =>
      rw [h.1] at task
      cases task
      exact Or.inr ⟨late, rfl, rfl⟩

/-- **A started job ends at its boundary.** -/
theorem Started.endsJob (h : s.Started id t) (hs : s.Sound) (hn : s.Complete n) {y : YieldResult}
    (hy : s.Yields id now y next) : s.EndsJob id t now y next := by
  rcases h.yields_cases hs hy with ⟨remaining, early, rfl, rfl⟩ | ⟨late, rfl, rfl⟩
  · obtain ⟨hpos, hadd⟩ := Instant.timeTo?_eq_some_iff.1 early
    have hrow := ReadyQueue.row_remove s.ready id
    constructor
    case sleeps => exact fun _ => ⟨remaining, rfl, hpos, hadd, rfl, task?_insert_self, hrow⟩
    case requeues =>
      intro hlate
      rw [Task.timeToRelease, Instant.timeTo?_eq_none_iff.2 hlate] at early
      cases early
    case handle => rfl
    case freed => simp [holdsSlot]
    case slot => exact slotWithout_eq s id
    case boundaries => exact boundaries_insert h.1 rfl
    case others => exact fun j hj => task?_insert_of_ne hj
    case order => exact (congrArg (Row.without id) hrow).trans (Row.without_without id _)
    case stopped => rfl
  · have hjoins := hn.joinsBehind hs id t.period
    constructor
    case sleeps => exact fun hearly => absurd hearly (Instant.timeTo?_eq_none_iff.1 late)
    case requeues => exact fun _ => ⟨rfl, rfl, task?_insert_self, hjoins⟩
    case handle => rfl
    case freed => simp [holdsSlot]
    case slot => exact slotWithout_eq s id
    case boundaries => exact boundaries_insert h.1 rfl
    case others => exact fun j hj => task?_insert_of_ne hj
    case order => exact hjoins.without_eq.trans (Row.without_without id _)
    case stopped => rfl

/-- What a yield makes of its caller: the outcome, the timer to arm, and the caller's record. -/
def jobEnd (s : Schedule) (id : TaskId) (now : Instant) :
    Except SchedError (YieldOutcome × Option Instant × Option Task) :=
  (fun r => (r.1.outcome, r.1.armAt, r.2.task? id)) <$> s.endJob id now

/-- What becomes of the caller is read off the record of its started job. -/
theorem Started.jobEnd_eq (h : s.Started id t) (hs : s.Sound) (now : Instant) :
    s.jobEnd id now = .ok (t.ended now) := by
  obtain ⟨y, next, hok⟩ := exists_endJob h.1 now
  rw [jobEnd, hok]
  show Except.ok (y.outcome, y.armAt, next.task? id) = _
  rcases h.yields_cases hs (yields_of_endJob hok) with
    ⟨remaining, early, rfl, rfl⟩ | ⟨late, rfl, rfl⟩
  · simp only [task?_insert_self, Task.ended, early]
  · simp only [task?_insert_self, Task.ended, late]

/-! ### Jobs that go on -/

/-- A started job goes on if the record of its task stays and the slot stays with its holder. -/
theorem Started.keeps (h : s.Started id t) (htask : next.task? id = s.task? id)
    (hslot : s.current = some id → next.current = some id) : next.Started id t :=
  ⟨htask.trans h.1, h.2.imp_left hslot⟩

/-- Some record tells that the started job goes on. -/
def GoesOn (s : Schedule) (id : TaskId) (t : Task) : Prop := ∃ u, s.Started id u ∧ t.SameJob u

theorem Started.goesOn (h : s.Started id t) : s.GoesOn id t := ⟨t, h, .refl t⟩

/-- **An evaluation keeps a started job**: a holder that loses the slot waits, and one that waits
may be granted the slot again. -/
theorem Started.evaluate (h : s.Started id t) (hs : s.Sound) : s.evaluate.2.GoesOn id t := by
  have hpending := h.jobPending_eq hs
  have hcases := hs.evaluates
  generalize s.evaluate.1 = d at hcases
  generalize s.evaluate.2 = next at hcases
  cases hcases with
  | idle _ => exact h.goesOn
  | keep _ _ _ _ _ => exact h.goesOn
  | @grant head u _ _ _ _ current task _ _ =>
      by_cases hid : id = head
      · subst hid
        rw [h.1] at task
        cases task
        exact ⟨t.grant, ⟨task?_award_self s id t, Or.inl rfl⟩, Task.sameJob_grant hpending⟩
      · refine (h.keeps (task?_insert_of_ne hid) fun hc => ?_).goesOn
        rw [current] at hc
        cases hc
  | @preempt running head t' u _ _ _ _ current task _ _ headTask _ _ =>
      by_cases hid : id = head
      · subst hid
        rw [h.1] at headTask
        cases headTask
        exact ⟨t.grant, ⟨task?_displace_head s running id t' t, Or.inl rfl⟩,
          Task.sameJob_grant hpending⟩
      · have htask := task?_displace s running head id t' u
        rw [if_neg (Ne.symm hid)] at htask
        by_cases hrunning : running = id
        · subst hrunning
          rw [h.1] at task
          cases task
          rw [if_pos rfl] at htask
          exact ⟨t.preempt, ⟨htask, Or.inr ⟨rfl, hpending⟩⟩, t.sameJob_preempt⟩
        · rw [if_neg hrunning] at htask
          refine (h.keeps htask fun hc => ?_).goesOn
          rw [current] at hc
          exact absurd (Option.some.inj hc) hrunning

theorem Started.confirm (h : s.Started id t) (hs : s.Sound) (j : TaskId) :
    (s.confirm j).2.GoesOn id t := by
  rcases hs.confirm_cases j with ⟨u, hc, -, hu, -, heq⟩ | ⟨-, heq⟩
  · rw [heq]
    by_cases hid : id = j
    · subst hid
      rw [h.1] at hu
      cases hu
      exact ⟨t.resume, ⟨task?_insert_self, Or.inl hc⟩, t.sameJob_resume⟩
    · exact (h.keeps (task?_insert_of_ne hid) fun hc => hc).goesOn
  · rw [heq]
    exact h.goesOn

/-- A release finds the task of a started job awake. -/
theorem Started.release (h : s.Started id t) (hs : s.Sound) (j : TaskId) :
    (s.release j).2.GoesOn id t := by
  rcases release_cases s j with ⟨u, hu, hsleep, heq⟩ | ⟨-, heq⟩
  · rw [heq]
    have hid : id ≠ j := by
      rintro rfl
      rw [h.1] at hu
      cases hu
      rcases h.state_cases hs with ⟨hrun, -⟩ | ⟨hready, -, -⟩
      · rw [hrun] at hsleep
        cases hsleep
      · rw [hready] at hsleep
        cases hsleep
    exact (h.keeps (task?_insert_of_ne hid) fun hc => hc).goesOn
  · rw [heq]
    exact h.goesOn

theorem Started.put (h : s.Started id t) {u : Task} (hu : s.task? u.id = none) :
    (s.put u).GoesOn id t := by
  have hid : id ≠ u.id := by
    rintro rfl
    rw [h.1] at hu
    cases hu
  have htask : (s.put u).task? id = s.task? id := by rw [task?_put, if_neg hid.symm]
  exact (h.keeps htask fun hc => hc).goesOn

theorem Started.withdraw (h : s.Started id t) (hj : j ≠ id) : (s.withdraw j).2.GoesOn id t := by
  refine (h.keeps (by rw [task?_withdraw, if_neg hj]) fun hc => ?_).goesOn
  exact slotWithout_eq_some_iff.2 ⟨hc, hj.symm⟩

/-- A yield of another task leaves a started job alone. -/
theorem Started.yields (h : s.Started id t) (hj : j ≠ id) {y : YieldResult}
    (hy : s.Yields j now y next) : next.GoesOn id t := by
  have hslot : s.current = some id → s.slotWithout j = some id := fun hc =>
    slotWithout_eq_some_iff.2 ⟨hc, hj.symm⟩
  cases hy with
  | nothing _ _ => exact h.goesOn
  | sleep _ _ _ => exact (h.keeps (task?_insert_of_ne hj.symm) hslot).goesOn
  | requeue _ _ _ => exact (h.keeps (task?_insert_of_ne hj.symm) hslot).goesOn

end Schedule

/-! ### Runs -/

/-- A transition lets the job of a task go on: it does not end the job, take the task away or end
scheduling. -/
def Transition.Spares (id : TaskId) : Transition → Prop
  | .deregister j => j ≠ id
  | .beginYield j _ => j ≠ id
  | .stop => False
  | _ => True

namespace Scheduler

variable {s : Scheduler} {id : TaskId} {t : Task} {now : Instant}

/-- **A started job goes on** with every transition that lets it. -/
theorem Consistent.started_take (hs : s.Consistent) (h : s.schedule.Started id t) {m : Transition}
    (hm : m.Spares id) : (s.take m).schedule.GoesOn id t := by
  cases m with
  | register resolver first v =>
      simp only [Scheduler.take, register_eq hs.free]
      cases hv : s.vet resolver first v with
      | error e => exact h.goesOn
      | ok r =>
          have hnone := hs.agrees.task?_eq_none (contains_of_vet hv)
          exact h.put (u := RegistryEntry.asleep ⟨v, r.1⟩ r.2) hnone
  | deregister j =>
      simp only [Scheduler.take, deregister_eq hs.free]
      cases s.registry.find? j with
      | none => exact h.goesOn
      | some e => exact (schedule_delisted s j e).1 ▸ h.withdraw hm
  | beginYield j clock =>
      simp only [Scheduler.take, beginYield_eq hs.free]
      split
      · cases he : s.schedule.endJob j clock with
        | error e => exact h.goesOn
        | ok r =>
            exact (schedule_yielded s j r.1 r.2).1 ▸ h.yields hm (Schedule.yields_of_endJob he)
      · exact h.goesOn
  | release j => exact (schedule_release s j).1 ▸ h.release hs.sound j
  | evaluate => exact h.evaluate hs.sound
  | confirm j => exact h.confirm hs.sound j
  | stop => exact hm.elim

/-- A started job goes on along a run of such transitions. -/
theorem Consistent.started_after (hs : s.Consistent) (h : s.schedule.Started id t)
    {more : List Transition} (hmore : ∀ m ∈ more, m.Spares id) :
    (s.after more).schedule.GoesOn id t := by
  induction more generalizing s t with
  | nil => exact h.goesOn
  | cons m more ih =>
      obtain ⟨u, hu, hsame⟩ := hs.started_take h (hmore m List.mem_cons_self)
      obtain ⟨v, hv, hsame'⟩ := ih (hs.take m) hu fun k hk => hmore k (List.mem_cons_of_mem m hk)
      exact ⟨v, hv, hsame.trans hsame'⟩

/-- **A yield ends exactly the caller's started job.** -/
structure EndsStartedJobs (s : Scheduler) (id : TaskId) (now : Instant) : Prop where
  /-- A task without a record is refused, and nothing changes. -/
  unknown : s.schedule.task? id = none → s.schedule.endJob id now = .error (.notFound id) ∧
    (s.take (.beginYield id now)).schedule = s.schedule
  /-- A task without a started job is told where it stands, and nothing changes. -/
  idle : ∀ t, s.schedule.task? id = some t → ¬ s.schedule.Started id t →
    s.schedule.endJob id now = .ok (⟨.notRunning t.state, t.handle, none, false⟩, s.schedule) ∧
      (s.take (.beginYield id now)).schedule = s.schedule
  /-- A started job runs in the slot or waits in the queue, and it ends at its boundary. -/
  ends : ∀ t, s.schedule.Started id t → ∃ y next, s.schedule.endJob id now = .ok (y, next) ∧
    s.schedule.EndsJob id t now y next
  /-- What becomes of the caller does not depend on what has been done to others in the meantime,
  nor on whether they have taken the slot from it. -/
  unmoved : ∀ t, s.schedule.Started id t → ∀ more, (∀ m ∈ more, m.Spares id) →
    (s.after more).schedule.jobEnd id now = s.schedule.jobEnd id now

/-- A yield that the schedule refuses leaves it as it is. -/
theorem Consistent.schedule_beginYield (hs : s.Consistent) {e : SchedError}
    (h : s.schedule.endJob id now = .error e) :
    (s.take (.beginYield id now)).schedule = s.schedule := by
  simp only [Scheduler.take, beginYield_eq hs.free, h]
  split <;> rfl

/-- A yield without a started job leaves the schedule as it is. -/
theorem Consistent.schedule_beginYield_of_eq (hs : s.Consistent) {y : YieldResult}
    (h : s.schedule.endJob id now = .ok (y, s.schedule)) :
    (s.take (.beginYield id now)).schedule = s.schedule := by
  simp only [Scheduler.take, beginYield_eq hs.free, h]
  split
  · exact (schedule_yielded s id y s.schedule).1
  · rfl

theorem Kept.endsStartedJobs {n : ℕ} (hs : s.Kept n) (id : TaskId) (now : Instant) :
    s.EndsStartedJobs id now where
  unknown := by
    intro hnone
    have hrefused : s.schedule.endJob id now = .error (.notFound id) := by
      simp only [Schedule.endJob, hnone]
    exact ⟨hrefused, hs.consistent.schedule_beginYield hrefused⟩
  idle := by
    intro t ht hidle
    have hbusy : s.schedule.inProgress id t = false := by
      rwa [← Bool.not_eq_true, hs.sound.inProgress_iff ht]
    have hnothing := Schedule.endJob_of_not_inProgress ht hbusy now
    exact ⟨hnothing, hs.consistent.schedule_beginYield_of_eq hnothing⟩
  ends := by
    intro t h
    obtain ⟨y, next, hok⟩ := Schedule.exists_endJob h.1 now
    exact ⟨y, next, hok, h.endsJob hs.sound hs.complete (Schedule.yields_of_endJob hok)⟩
  unmoved := by
    intro t h more hmore
    obtain ⟨u, hu, hsame⟩ := hs.consistent.started_after h hmore
    rw [hu.jobEnd_eq (hs.consistent.after more).sound, h.jobEnd_eq hs.sound, hsame.ended_eq]

/-- **In every state of a run, a yield ends exactly the caller's started job.**  Whoever asks, and
whenever: without a record it is refused, without a started job it is told where it stands, and in
both cases nothing changes.  A started job ends at its boundary, and what becomes of its task is the
same whether it has lost the slot before or not. -/
theorem endsStartedJobs_after {c : Config} (hs : Scheduler.new c = .ok s) (run : List Transition)
    (hrun : run.length < 2 ^ 63) (id : TaskId) (now : Instant) :
    (s.after run).EndsStartedJobs id now := by
  obtain ⟨-, rfl⟩ := new_eq_ok hs
  exact ((kept_ofConfig c).after run (by omega)).endsStartedJobs id now

/-- An evaluation takes the slot from the first of two tasks; the second is queued already. -/
theorem endsStartedJobs_after_challenge :
    let s := (ofConfig Config.default).after challenge
    Scheduler.new Config.default = .ok (ofConfig Config.default) ∧ challenge.length < 2 ^ 63 ∧
      s.schedule.current = some ⟨1⟩ ∧ s.schedule.evaluate.2.current = some ⟨2⟩ ∧
      s.schedule.jobEnd ⟨1⟩ Instant.start = s.schedule.evaluate.2.jobEnd ⟨1⟩ Instant.start ∧
      s.EndsStartedJobs ⟨1⟩ Instant.start :=
  ⟨rfl, by decide, by decide, by decide, by rfl,
    endsStartedJobs_after (c := Config.default) rfl challenge (by decide) ⟨1⟩ Instant.start⟩

end Scheduler

end RateMonotonic
