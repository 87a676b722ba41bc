/-
**Sleeping tasks and release timers.**

The worker takes a timer off the table before it releases the task, and a call arms a timer after it
has put the task to sleep, so record and timer part for a while.  But somebody is always in charge of
the pair: the call that is to arm the timer, the worker that has taken it, or the table.  No timer is
lost on the way from one to the other, and none is there twice.

Main definitions:
* `System.Timed` — the invariant;
* `System.ShutByStop` — the timers are dropped by a stop only;
* `System.Taken` — in a run, the worker has taken a timer and has not released its task yet;
* `System.TimersAgree` — what follows for sleeping tasks and for callbacks.

Main results:
* `System.Timed.act` — **every action keeps sleepers and timers together**;
* `System.Kept.taken_since` — the timer that the worker has taken was pending for the boundary of
  its task;
* `System.timersAgree_after` — **a task sleeps exactly when its timer is pending, or taken by a
  callback that is still to release it**, and every callback finds its task asleep.
-/

import Mathlib.Data.List.Induction
import RateMonotonic.Proofs.System
import RateMonotonic.Proofs.TimerSections

set_option relaxedAutoImplicit false
set_option autoImplicit false

namespace RateMonotonic

/-! ### Everybody together -/

namespace System

/-- Sleeping tasks and timers go together. -/
structure Timed (y : System) : Prop where
  /-- Nobody releases a task by hand. -/
  byTimer : ∀ a ∈ y.calls, a.releases = false
  /-- The worker is in the callback of the timer that it has taken. -/
  flight : ∀ id, y.scheduler.worker = .releasing id → y.scheduler.timers.inFlight = some id
  /-- A timer of which no call is in charge is where it should be. -/
  clocked : ∀ id, (∀ a ∈ y.calls, a.suspends id = false) → y.scheduler.Clocked id
  /-- A call in charge of a timer can rely on what it has seen to. -/
  awaits : ∀ a ∈ y.calls, a.Awaits y.scheduler

theorem timed_idle (c : Config) : (idle (Scheduler.ofConfig c)).Timed where
  byTimer := by simp [idle]
  flight := by simp [idle, Scheduler.ofConfig]
  clocked := fun _ _ => ⟨fun hw => (by cases hw), fun _ => rfl⟩
  awaits := by simp [idle]

/-- A timer that the worker has taken is not pending, and its task sleeps. -/
theorem Timed.taken {y : System} (h : y.Timed) {id : TaskId}
    (hw : y.scheduler.worker = .releasing id) :
    (y.scheduler.schedule.alarm? id).isSome = true ∧ y.scheduler.timers.deadline? id = none := by
  by_cases hfree : ∀ a ∈ y.calls, a.suspends id = false
  · exact (h.clocked id hfree).taken hw
  · simp only [not_forall, Bool.not_eq_false] at hfree
    obtain ⟨a, ha, hs⟩ := hfree
    exact ⟨((h.awaits a ha).sleeps hs hw).1, (h.awaits a ha).deadline?_eq_none hs⟩

/-- No call is in charge of a timer that is pending. -/
theorem Timed.clocked_of_pending {y : System} (h : y.Timed) {id : TaskId} {d : Instant}
    (hd : y.scheduler.timers.deadline? id = some d) : y.scheduler.Clocked id := by
  refine h.clocked id fun a ha => ?_
  rw [← Bool.not_eq_true]
  intro hs
  rw [(h.awaits a ha).deadline?_eq_none hs] at hd
  cases hd

/-- A step that concerns no timer keeps the invariant. -/
theorem Timed.of_same {y : System} (h : y.Timed) {next : Scheduler}
    (hflight : ∀ id, next.worker = .releasing id → next.timers.inFlight = some id)
    (hsame : ∀ id, y.scheduler.SameClock next id) : Timed ⟨next, y.calls⟩ where
  byTimer := h.byTimer
  flight := hflight
  clocked := fun id hfree => (h.clocked id hfree).of_same (hsame id)
  awaits := fun a ha => (h.awaits a ha).of_same fun id _ => hsame id

theorem Timed.advance {y : System} (h : y.Timed) (hy : y.Kept) {l r : List Activity}
    {a rest : Activity} {next : Scheduler} (hcalls : y.calls = l ++ a :: r)
    (ha : a.Advances y.scheduler next rest) : Timed ⟨next, l ++ rest :: r⟩ := by
  have hall : ∀ {P : Activity → Prop},
      (∀ b ∈ y.calls, P b) ↔ P a ∧ ∀ b, b ∈ l ∨ b ∈ r → P b := by
    rw [hcalls]
    exact forall_calls_iff
  obtain ⟨hhand, hhands⟩ := hall.1 h.byTimer
  obtain ⟨hown, hothers⟩ := hall.1 h.awaits
  obtain ⟨hworker, hinFlight⟩ := ha.worker
  have hmem : a ∈ y.calls := by simp [hcalls]
  have hproper := hy.proper a hmem
  refine ⟨forall_calls_iff.2 ⟨ha.releases hproper, hhands⟩,
    fun id hw => hinFlight.trans (h.flight id (hworker.symm.trans hw)), fun id hfree => ?_,
    forall_calls_iff.2 ⟨?_, fun b hb => ?_⟩⟩
  · obtain ⟨hrest, hfree⟩ := forall_calls_iff.1 hfree
    exact ha.clocked hhand hown (fun hs => h.clocked id (hall.2 ⟨hs, hfree⟩)) hrest
  · refine ha.awaits hproper (hy.fits a hmem) hown h.flight fun id hsubject hs => ?_
    have hin := Activity.holds_of_subject hsubject
    exact h.clocked id (hall.2 ⟨hs, fun b hb =>
      Activity.suspends_of_outside (hy.outside_of_other hcalls hin hb) id⟩)
  · cases hin : a.holds with
    | true => exact Activity.awaits_of_outside (hy.outside_of_other hcalls hin hb) _
    | false =>
        refine (hothers b hb).of_same fun id _ => ha.sameClock hhand fun hsubject => ?_
        rw [Activity.holds_of_subject hsubject] at hin
        cases hin

theorem Timed.loopStep {y : System} (h : y.Timed) (hy : y.Kept) {next : Scheduler}
    (hloop : y.scheduler.LoopSteps next) : Timed ⟨next, y.calls⟩ := by
  cases hloop with
  | take _ _ => exact h.of_same h.flight fun _ => .of_eq rfl rfl rfl
  | look _ => exact h.of_same h.flight fun _ => .of_eq rfl rfl rfl
  | evaluate _ =>
      exact h.of_same h.flight fun id => .of_eq (hy.sound.alarm?_evaluate id) rfl rfl
  | @apply q _ =>
      refine h.of_same h.flight fun id => .of_eq ?_ rfl rfl
      rcases Scheduler.schedule_step y.scheduler.dispatcher q with heq | ⟨j, heq⟩
      · exact congrArg (·.alarm? id) heq
      · exact (congrArg (·.alarm? id) heq).trans (hy.sound.alarm?_confirm j id)

/-- The worker takes a timer: its task is to be released now. -/
theorem Timed.take {y : System} (h : y.Timed) {k : TaskId} {timers : Timers TaskId} {now : Instant}
    (hidle : y.scheduler.worker = .idle)
    (hpoll : y.scheduler.timers.poll now = (some k, timers)) :
    Timed ⟨{ y.scheduler with timers := timers, worker := .releasing k }, y.calls⟩ := by
  obtain ⟨hopen, hopen', hflight, ⟨d, hd, -⟩, hdeadline⟩ := Timers.poll_eq_some hpoll
  have hsame : ∀ id, k ≠ id → y.scheduler.SameClock
      { y.scheduler with timers := timers, worker := .releasing k } id := by
    intro id hne
    refine ⟨rfl, ?_, Or.inl ⟨hopen'.trans hopen.symm, (hdeadline id).trans (if_neg hne)⟩⟩
    rw [hidle]
    exact iff_of_false (fun hw => hne (WorkerState.releasing.inj hw)) (by simp)
  refine ⟨h.byTimer, ?_, fun id hfree => ?_, fun a ha => ?_⟩
  · rintro id ⟨⟩
    exact hflight
  · by_cases hk : k = id
    · subst hk
      have hpending := (h.clocked_of_pending hd).pending (by rw [hidle]; simp)
      refine ⟨fun _ => ⟨?_, (hdeadline k).trans (if_pos rfl)⟩, fun hw => absurd rfl hw⟩
      rw [hopen, hd] at hpending
      exact Option.isSome_iff_exists.2 ⟨d, hpending.symm⟩
    · exact (h.clocked id hfree).of_same (hsame id hk)
  · refine (h.awaits a ha).of_same fun id hs => hsame id ?_
    rintro rfl
    rw [(h.awaits a ha).deadline?_eq_none hs] at hd
    cases hd

/-- The callback releases its task, which sleeps no more. -/
theorem Timed.release {y : System} (h : y.Timed) {k : TaskId}
    (hw : y.scheduler.worker = .releasing k) :
    Timed ⟨{ (y.scheduler.releaseTask k).2 with worker := .announcing k }, y.calls⟩ := by
  have hsame : ∀ id, k ≠ id → y.scheduler.SameClock
      { (y.scheduler.releaseTask k).2 with worker := .announcing k } id := by
    intro id hne
    have halarm := Schedule.alarm?_release y.scheduler.schedule k id
    refine ⟨halarm.trans (if_neg hne), ?_, Or.inl ⟨rfl, rfl⟩⟩
    rw [hw]
    exact iff_of_false (by simp) fun heq => hne (WorkerState.releasing.inj heq)
  obtain ⟨-, hnone⟩ := h.taken hw
  have hdisarmed : Scheduler.Disarmed
      { (y.scheduler.releaseTask k).2 with worker := .announcing k } k := ⟨hnone, by simp⟩
  refine ⟨h.byTimer, fun id heq => (by cases heq), fun id hfree => ?_, fun a ha => ?_⟩
  · by_cases hk : k = id
    · subst hk
      have halarm := Schedule.alarm?_release y.scheduler.schedule k k
      exact hdisarmed.clocked (halarm.trans (if_pos rfl))
    · exact (h.clocked id hfree).of_same (hsame id hk)
  · by_cases hs : a.suspends k = true
    · rw [((h.awaits a ha).sleeps hs hw).2]
      exact ⟨hnone, fun heq => by cases heq⟩
    · refine (h.awaits a ha).of_same fun id hs' => hsame id ?_
      rintro rfl
      exact hs hs'

theorem Timed.workerStep {y : System} (h : y.Timed) {next : Scheduler}
    (hworker : y.scheduler.WorkerSteps next) : Timed ⟨next, y.calls⟩ := by
  cases hworker with
  | take idle polled => exact h.take idle polled
  | release releasing => exact h.release releasing
  | pass releasing unreleased =>
      exact absurd (Schedule.release_of_alarm? (h.taken releasing).1) unreleased
  | announce announcing =>
      refine h.of_same (fun id hw => by cases hw) fun id => ⟨rfl, ?_, Or.inl ⟨rfl, rfl⟩⟩
      rw [announcing]
      simp
  | finish finishing =>
      refine h.of_same (fun id hw => by cases hw) fun id => ⟨rfl, ?_, Or.inl ⟨rfl, rfl⟩⟩
      rw [finishing]
      simp

/-- **Every action keeps sleepers and timers together**, unless it releases a task by hand. -/
theorem Timed.act {y : System} (h : y.Timed) (hy : y.Kept) {m : Action}
    (hm : ∀ id, m ≠ .invoke (.release id)) : (y.act m).Timed := by
  have hacts := acts_act hy.proper m
  generalize y.act m = next at hacts
  cases hacts with
  | stutter _ => exact h
  | @invoke c _ =>
      refine ⟨fun a ha => ?_, h.flight, fun id hfree => ?_, fun a ha => ?_⟩
      · rcases List.mem_append.1 ha with ha | ha
        · exact h.byTimer a ha
        · rw [List.mem_singleton.1 ha]
          cases c with
          | release id => exact absurd rfl (hm id)
          | _ => rfl
      · exact h.clocked id fun a ha => hfree a (List.mem_append_left _ ha)
      · rcases List.mem_append.1 ha with ha | ha
        · exact h.awaits a ha
        · rw [List.mem_singleton.1 ha]
          trivial
  | advance hcalls ha => exact h.advance hy hcalls ha
  | loop hloop => exact h.loopStep hy hloop
  | worker hworker => exact h.workerStep hworker

/-! ### Before a stop -/

/-- The timers are dropped by a stop only. -/
structure ShutByStop (y : System) : Prop where
  closed : y.scheduler.timers.closed = true → y.scheduler.stopRequested = true
  shuts : ∀ a ∈ y.calls, a.shuts = true → y.scheduler.stopRequested = true

theorem ShutByStop.act {y : System} (h : y.ShutByStop) (hy : y.Kept) (m : Action) :
    (y.act m).ShutByStop := by
  have hacts := acts_act hy.proper m
  generalize y.act m = next at hacts
  cases hacts with
  | stutter _ => exact h
  | invoke _ =>
      refine ⟨h.closed, fun a ha hs => ?_⟩
      rcases List.mem_append.1 ha with ha | ha
      · exact h.shuts a ha hs
      · rw [List.mem_singleton.1 ha] at hs
        cases hs
  | @advance _ _ _ l r a rest next hcalls ha =>
      obtain ⟨hown, hothers⟩ := forall_calls_iff.1 (hcalls ▸ h.shuts)
      refine ⟨fun hclosed => ha.stopRequested ((ha.closed hclosed).elim h.closed hown),
        forall_calls_iff.2 ⟨fun hs => ?_, fun b hb hs => ha.stopRequested (hothers b hb hs)⟩⟩
      exact (ha.shuts hs).elim (fun hs => ha.stopRequested (hown hs)) fun hs => hs
  | loop hloop => cases hloop <;> exact ⟨h.closed, h.shuts⟩
  | worker hworker =>
      cases hworker with
      | take _ polled =>
          refine ⟨fun hclosed => ?_, h.shuts⟩
          obtain ⟨-, hopen, -⟩ := Timers.poll_eq_some polled
          rw [hopen] at hclosed
          cases hclosed
      | _ => exact ⟨h.closed, h.shuts⟩

/-! ### Timers that the worker has taken -/

/-- In a run, the worker has taken the timer that a task had pending for an instant, and has not
released the task since. -/
def Taken (y : System) (run : List Action) (id : TaskId) (d : Instant) : Prop :=
  ∃ before now since, run = before ++ .worker now :: since ∧
    (y.after before).scheduler.timers.deadline? id = some d ∧
      y.Since (fun z => z.scheduler.worker = .releasing id) before (.worker now) since

theorem Taken.worker {y : System} {run : List Action} {id : TaskId} {d : Instant}
    (h : y.Taken run id d) : (y.after run).scheduler.worker = .releasing id := by
  obtain ⟨before, now, since, rfl, -, hsince⟩ := h
  exact hsince since (List.prefix_refl since)

/-- A timer that the worker has taken, it had taken before with the same boundary, or it was pending
for that boundary. -/
theorem Timed.taken_or_pending {y : System} (h : y.Timed) (hy : y.Kept) {m : Action} {id : TaskId}
    {d : Instant} (hw : (y.act m).scheduler.worker = .releasing id)
    (hd : (y.act m).scheduler.schedule.alarm? id = some d) :
    (y.scheduler.worker = .releasing id ∧ y.scheduler.schedule.alarm? id = some d) ∨
      ∃ now, m = .worker now ∧ y.scheduler.timers.deadline? id = some d := by
  have hacts := acts_act hy.proper m
  generalize y.act m = next at hacts hw hd
  cases hacts with
  | stutter _ => exact Or.inl ⟨hw, hd⟩
  | invoke _ => exact Or.inl ⟨hw, hd⟩
  | @advance _ _ _ l r a rest next hcalls ha =>
      have hmem : a ∈ y.calls := by simp [hcalls]
      have hbefore := ha.worker.1.symm.trans hw
      have hsame := ha.alarm?_of_releasing (h.byTimer a hmem) (hy.fits a hmem) (h.awaits a hmem)
        hbefore (h.taken hbefore).1
      exact Or.inl ⟨hbefore, hsame.symm.trans hd⟩
  | loop hloop =>
      cases hloop with
      | take _ _ => exact Or.inl ⟨hw, hd⟩
      | look _ => exact Or.inl ⟨hw, hd⟩
      | evaluate _ => exact Or.inl ⟨hw, (hy.sound.alarm?_evaluate id).symm.trans hd⟩
      | @apply q _ =>
          refine Or.inl ⟨hw, ?_⟩
          rcases Scheduler.schedule_step y.scheduler.dispatcher q with heq | ⟨j, heq⟩
          · exact (congrArg (·.alarm? id) heq).symm.trans hd
          · rw [← hy.sound.alarm?_confirm j id]
            exact (congrArg (·.alarm? id) heq).symm.trans hd
  | @worker now next hworker =>
      cases hworker with
      | take idle polled =>
          cases hw
          obtain ⟨hopen, -, -, ⟨e, he, -⟩, -⟩ := Timers.poll_eq_some polled
          have hpending := (h.clocked_of_pending he).pending (by rw [idle]; simp)
          rw [hopen] at hpending
          exact Or.inr ⟨now, rfl, hpending.trans hd⟩
      | release _ => cases hw
      | pass _ _ => cases hw
      | announce _ => cases hw
      | finish _ => cases hw

/-- The timer that the worker has taken was pending for the boundary of its task. -/
def TakenInTime (y : System) (run : List Action) : Prop :=
  ∀ id d, (y.after run).scheduler.worker = .releasing id →
    (y.after run).scheduler.schedule.alarm? id = some d → y.Taken run id d

/-- **Every action leaves a timer with the callback that has taken it**, or lets one be taken that
was pending: so whatever the worker has taken since it was somewhere else, it has taken in time. -/
theorem Kept.taken_since {y : System} (hy : y.Kept) {id : TaskId}
    (helsewhere : y.scheduler.worker ≠ .releasing id) (run : List Action)
    (htimed : ∀ before, before <+: run → (y.after before).Timed) {d : Instant}
    (hw : (y.after run).scheduler.worker = .releasing id)
    (hd : (y.after run).scheduler.schedule.alarm? id = some d) : y.Taken run id d := by
  induction run using List.reverseRecOn generalizing d with
  | nil => exact absurd hw helsewhere
  | append_singleton run m ih =>
      have hshorter : ∀ before, before <+: run → (y.after before).Timed :=
        fun before hbefore => htimed before (hbefore.trans (List.prefix_append run [m]))
      have hnext := y.after_concat run m
      have hbefore := hshorter run (List.prefix_refl run)
      rcases hbefore.taken_or_pending (hy.after run) (hnext ▸ hw) (hnext ▸ hd) with
        ⟨hbusy, hsleeps⟩ | ⟨now, rfl, hpending⟩
      · obtain ⟨before, now, since, rfl, hpending, hsince⟩ := ih hshorter hbusy hsleeps
        exact ⟨before, now, since ++ [m], by simp, hpending, hsince.snoc hw⟩
      · exact ⟨run, now, [], rfl, hpending, since_nil hw⟩

/-! ### Runs -/

theorem timed_after (c : Config) (run : List Action) (hrun : ∀ id, .invoke (.release id) ∉ run) :
    ((idle (Scheduler.ofConfig c)).after run).Timed :=
  (kept_idle c).invariant (timed_idle c) run fun _ hm _ hz ht =>
    ht.act hz fun id heq => hrun id (heq ▸ hm)

theorem shutByStop_after (c : Config) (run : List Action) :
    ((idle (Scheduler.ofConfig c)).after run).ShutByStop :=
  (kept_idle c).invariant ⟨fun h => (by cases h), by simp [idle]⟩ run fun m _ _ hz hs => hs.act hz m

theorem takenInTime_after (c : Config) (run : List Action)
    (hrun : ∀ id, .invoke (.release id) ∉ run) :
    (idle (Scheduler.ofConfig c)).TakenInTime run := by
  intro id d hw hd
  refine (kept_idle c).taken_since (by simp [idle, Scheduler.ofConfig]) run (fun before hbefore => ?_)
    hw hd
  exact timed_after c before fun id hm => hrun id (hbefore.subset hm)

/-- No call inside the registry is about a task. -/
def Unattended (y : System) (id : TaskId) : Prop := ∀ a ∈ y.calls, a.subject ≠ some id

/-- Registry and schedule agree on a task that no call is about. -/
theorem Kept.entries {y : System} (hy : y.Kept) {id : TaskId} (hid : y.Unattended id) :
    (y.scheduler.schedule.task? id).map Task.entry = y.scheduler.registry.find? id := by
  obtain ⟨leaving, hmatches, hleaves⟩ := hy.exists_matches
  refine hmatches.entries id fun hleaving => ?_
  obtain ⟨freed, hstrikes⟩ := hleaves id hleaving
  exact hid _ hstrikes rfl

theorem Kept.contains_iff {y : System} (hy : y.Kept) {id : TaskId} (hid : y.Unattended id) :
    y.scheduler.registry.contains id = true ↔ ∃ t, y.scheduler.schedule.task? id = some t := by
  have hentries := hy.entries hid
  constructor
  · intro hc
    obtain ⟨e, he⟩ := Registry.find?_of_contains hc
    obtain ⟨t, ht, -⟩ := Option.map_eq_some_iff.1 (hentries.trans he)
    exact ⟨t, ht⟩
  · rintro ⟨t, ht⟩
    rw [ht] at hentries
    exact Registry.contains_of_find? hentries.symm

/-- What can be relied on after a run about sleeping tasks and timers. -/
structure TimersAgree (y : System) (run : List Action) : Prop where
  /-- Before a stop, a task that no call is about sleeps exactly when its timer is pending for its
  boundary, or the worker has taken that timer and not released the task yet. -/
  sleeps_iff : (y.after run).scheduler.stopRequested = false → ∀ id t, (y.after run).Unattended id →
    (y.after run).scheduler.schedule.task? id = some t →
      (t.state = .sleeping ↔
        (y.after run).scheduler.timers.deadline? id = some t.nextRelease ∨
          y.Taken run id t.nextRelease)
  /-- A timer that has been taken is not pending. -/
  once : ∀ id d, y.Taken run id d → (y.after run).scheduler.timers.deadline? id = none
  /-- A task that is ready or running has no timer. -/
  awake : ∀ id t, (y.after run).Unattended id →
    (y.after run).scheduler.schedule.task? id = some t → t.state ≠ .sleeping →
      (y.after run).scheduler.timers.deadline? id = none
  /-- The tasks with records are the registered tasks. -/
  registered : ∀ id, (y.after run).Unattended id →
    ((y.after run).scheduler.registry.contains id = true ↔
      ∃ t, (y.after run).scheduler.schedule.task? id = some t)
  /-- Nobody else has a timer. -/
  unregistered : ∀ id, (y.after run).Unattended id →
    (y.after run).scheduler.registry.contains id = false →
      (y.after run).scheduler.timers.deadline? id = none
  /-- Every callback that is to release a task finds it asleep. -/
  released : ∀ id, (y.after run).scheduler.worker = .releasing id →
    ∃ t, (y.after run).scheduler.schedule.task? id = some t ∧ t.state = .sleeping ∧
      ((y.after run).scheduler.releaseTask id).1 = .released

theorem Timed.clocked_of_unattended {y : System} (h : y.Timed) {id : TaskId}
    (hid : y.Unattended id) : y.scheduler.Clocked id := by
  refine h.clocked id fun a ha => ?_
  rw [← Bool.not_eq_true]
  exact fun hs => hid a ha (Activity.subject_of_suspends hs)

/-- **A task sleeps exactly when its timer is pending, or taken by a callback that is still to
release it**, and every callback finds its task asleep. -/
theorem timersAgree_after {c : Config} {s : Scheduler} (hs : Scheduler.new c = .ok s)
    (run : List Action) (hrun : ∀ id, .invoke (.release id) ∉ run) :
    (idle s).TimersAgree run := by
  obtain ⟨-, rfl⟩ := Scheduler.new_eq_ok hs
  have hkept := (kept_idle c).after run
  have htimed := timed_after c run hrun
  refine ⟨fun hlive id t hid ht => ?_, fun id d htaken => (htimed.taken htaken.worker).2,
    fun id t hid ht hawake => ?_, fun id hid => hkept.contains_iff hid, fun id hid hout => ?_,
    fun id hw => ?_⟩
  · have hopen : ((idle (Scheduler.ofConfig c)).after run).scheduler.timers.closed = false := by
      rw [← Bool.not_eq_true]
      intro hclosed
      rw [(shutByStop_after c run).closed hclosed] at hlive
      cases hlive
    have hiff := (htimed.clocked_of_unattended hid).sleeps_iff hopen ht
    refine ⟨fun hsleep => (hiff.1 hsleep).imp_right fun hw => ?_,
      fun htimer => hiff.2 (htimer.imp_right Taken.worker)⟩
    exact takenInTime_after c run hrun id _ hw ((Schedule.alarm?_of_task? ht).trans (if_pos hsleep))
  · have halarm := (Schedule.alarm?_of_task? ht).trans (Task.alarm?_of_awake hawake)
    exact ((htimed.clocked_of_unattended hid).disarmed halarm).1
  · have hnone : ((idle (Scheduler.ofConfig c)).after run).scheduler.schedule.task? id = none := by
      rw [Option.eq_none_iff_forall_ne_some]
      intro t ht
      rw [(hkept.contains_iff hid).2 ⟨t, ht⟩] at hout
      cases hout
    exact ((htimed.clocked_of_unattended hid).disarmed (Schedule.alarm?_of_none hnone)).1
  · have hsleeps := (htimed.taken hw).1
    obtain ⟨d, hd⟩ := Option.isSome_iff_exists.1 hsleeps
    obtain ⟨t, ht, hsleep, -⟩ := Schedule.alarm?_eq_some_iff.1 hd
    exact ⟨t, ht, hsleep, Schedule.release_of_alarm? hsleeps⟩

/-- The instant two seconds after the clock's start. -/
def twoSeconds : Instant := ⟨2 * 10 ^ 9, by decide, by decide⟩

/-- Two tasks sleep; the timer of one is pending, and the worker has taken that of the other. -/
def firing : List Action :=
  .invoke (.register ⟨⟨1⟩, Duration.ofMillis 100, Duration.ofMillis 1⟩) ::
    sections 0 4 Instant.start ++
  .invoke (.register ⟨⟨2⟩, Duration.ofMillis 50, Duration.ofMillis 1⟩) ::
    sections 1 4 twoSeconds ++
  [.worker Instant.start]

theorem timersAgree_firing :
    let y := (idle (Scheduler.ofConfig Config.default)).after firing
    (∀ id, .invoke (.release id) ∉ firing) ∧ y.scheduler.stopRequested = false ∧
      y.Unattended ⟨1⟩ ∧ y.Unattended ⟨2⟩ ∧ y.scheduler.worker = .releasing ⟨1⟩ ∧
      y.scheduler.timers.deadline? ⟨2⟩ = some twoSeconds ∧
      (y.scheduler.schedule.task? ⟨2⟩).map Task.nextRelease = some twoSeconds ∧
      (idle (Scheduler.ofConfig Config.default)).TimersAgree firing := by
  have hrun : ∀ id, Action.invoke (.release id) ∉ firing := by
    simp [firing, sections]
  have hone : ((idle (Scheduler.ofConfig Config.default)).after firing).Unattended ⟨1⟩ := by
    unfold Unattended
    decide
  have htwo : ((idle (Scheduler.ofConfig Config.default)).after firing).Unattended ⟨2⟩ := by
    unfold Unattended
    decide
  exact ⟨hrun, by decide, hone, htwo, by decide, by decide, by decide,
    timersAgree_after (c := Config.default) rfl firing hrun⟩

end System

end RateMonotonic
