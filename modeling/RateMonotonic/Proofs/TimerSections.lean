/-
**What the sections of a call do to sleeping tasks and their timers.**

A task that sleeps is woken by one timer, set to the boundary in its record.  Its call puts it to
sleep first and arms the timer later; a call that takes it away drops the timer first and the record
later.  In between the call is in charge of the timer: the table has none for the task, and whatever
anybody else does, the call finds the task as it has left it.

Main definitions:
* `Task.alarm?`, `Schedule.alarm?` — when a sleeping task is to be released;
* `Scheduler.Clocked`, `Scheduler.Disarmed` — a task's timer is where it should be, or nowhere;
* `Scheduler.SameClock` — nothing has happened to a task's sleep and its timer;
* `Activity.suspends`, `Activity.Awaits` — the calls in charge of a timer, and what they rely on.

Main results:
* `Schedule.Sound.alarm?_evaluate`, `Schedule.alarm?_release`, `Schedule.Yields.alarm?_of_armAt` and
  others — who is put to sleep, and who is woken;
* `Scheduler.Clocked.sleeps_iff` — a task sleeps exactly when its timer is pending or taken;
* `Activity.Advances.sameClock` — a section concerns the timer of one task;
* `Activity.Advances.clocked`, `Activity.Advances.awaits` — **a call takes charge of a timer when it
  can rely on it, and leaves it where it should be**.
-/

import RateMonotonic.Proofs.Sections

set_option relaxedAutoImplicit false
set_option autoImplicit false

namespace RateMonotonic

/-! ### Alarms -/

/-- When a task is to be released, if it sleeps. -/
def Task.alarm? (t : Task) : Option Instant :=
  if t.state = .sleeping then some t.nextRelease else none

theorem Task.alarm?_of_awake {t : Task} (h : t.state ≠ .sleeping) : t.alarm? = none := if_neg h

namespace Schedule

variable {s next : Schedule}

/-- When a task is to be released, if there is such a task and it sleeps. -/
def alarm? (s : Schedule) (id : TaskId) : Option Instant := (s.task? id).bind Task.alarm?

theorem alarm?_of_task? {id : TaskId} {t : Task} (ht : s.task? id = some t) :
    s.alarm? id = t.alarm? := by
  rw [alarm?, ht]
  rfl

theorem alarm?_of_none {id : TaskId} (h : s.task? id = none) : s.alarm? id = none := by
  rw [alarm?, h]
  rfl

theorem alarm?_eq_some_iff {id : TaskId} {d : Instant} :
    s.alarm? id = some d ↔
      ∃ t, s.task? id = some t ∧ t.state = .sleeping ∧ t.nextRelease = d := by
  simp [alarm?, Option.bind_eq_some_iff, Task.alarm?]

theorem alarm?_insert (s : Schedule) (id j : TaskId) (u : Task) (q : ReadyQueue)
    (c : Option TaskId) :
    alarm? { s with tasks := s.tasks.insert id u, ready := q, current := c } j =
      if id = j then u.alarm? else s.alarm? j := by
  rw [alarm?, task?_insert]
  split <;> rfl

/-- Storing a record with the alarm of the old one. -/
theorem alarm?_store {id : TaskId} {u : Task} {q : ReadyQueue} {c : Option TaskId}
    (hu : u.alarm? = s.alarm? id) (j : TaskId) :
    alarm? { s with tasks := s.tasks.insert id u, ready := q, current := c } j = s.alarm? j := by
  rw [alarm?_insert]
  split
  · next hj => exact hj ▸ hu
  · rfl

theorem alarm?_put (s : Schedule) (t : Task) (j : TaskId) :
    (s.put t).alarm? j = if t.id = j then t.alarm? else s.alarm? j :=
  alarm?_insert s t.id j t s.ready s.current

theorem alarm?_withdraw (s : Schedule) (id j : TaskId) :
    (s.withdraw id).2.alarm? j = if id = j then none else s.alarm? j := by
  rw [alarm?, task?_withdraw]
  split <;> rfl

/-- **A release is for sleeping tasks**: afterwards its task sleeps no more. -/
theorem alarm?_release (s : Schedule) (id j : TaskId) :
    (s.release id).2.alarm? j = if id = j then none else s.alarm? j := by
  cases ht : s.task? id with
  | none =>
      rw [release_unknown ht]
      split
      · next hj => exact hj ▸ alarm?_of_none ht
      · rfl
  | some t =>
      by_cases hsleep : t.state = .sleeping
      · have heq : (s.release id).2 = { s with
            tasks := s.tasks.insert id t.release, ready := s.ready.insert id t.period } := by
          simp [release, ht, hsleep]
        rw [heq]
        exact alarm?_insert s id j t.release _ _
      · rw [release_of_not_sleeping ht hsleep]
        split
        · next hj => exact hj ▸ (alarm?_of_task? ht).trans (Task.alarm?_of_awake hsleep)
        · rfl

/-- A task that sleeps can be released. -/
theorem release_of_alarm? {id : TaskId} (h : (s.alarm? id).isSome = true) :
    (s.release id).1 = .released := by
  obtain ⟨d, hd⟩ := Option.isSome_iff_exists.1 h
  obtain ⟨t, ht, hsleep, -⟩ := alarm?_eq_some_iff.1 hd
  simp [release, ht, hsleep]

/-- Who takes the slot and who loses it are both awake. -/
theorem Sound.alarm?_evaluate (h : s.Sound) (id : TaskId) :
    s.evaluate.2.alarm? id = s.alarm? id := by
  have hcases := h.evaluates
  generalize s.evaluate.1 = d at hcases
  generalize s.evaluate.2 = next at hcases
  cases hcases with
  | idle _ => rfl
  | keep _ _ _ _ _ => rfl
  | @grant head u _ _ _ _ _ task ready _ =>
      refine alarm?_store ?_ id
      rw [alarm?_of_task? task, Task.alarm?_of_awake (by simp), Task.alarm?_of_awake (by simp [ready])]
  | @preempt running head t u _ _ _ _ _ task run _ headTask ready _ =>
      rw [alarm?, task?_displace]
      split
      · next hid =>
          subst hid
          rw [alarm?_of_task? headTask, Task.alarm?_of_awake (by simp [ready])]
          exact Task.alarm?_of_awake (by simp)
      · split
        · next hid =>
            subst hid
            rw [alarm?_of_task? task, Task.alarm?_of_awake (by simp [run])]
            rfl
        · rfl

theorem Sound.alarm?_confirm (h : s.Sound) (id j : TaskId) :
    (s.confirm id).2.alarm? j = s.alarm? j := by
  rcases h.confirm_cases id with ⟨t, -, -, ht, -, heq⟩ | ⟨-, heq⟩
  · rw [heq]
    exact alarm?_store (u := t.resume) (alarm?_of_task? ht).symm j
  · rw [heq]

/-- Who has a job in progress is awake. -/
theorem alarm?_of_inProgress {id : TaskId} {t : Task} (ht : s.task? id = some t)
    (hbusy : s.inProgress id t = true) : s.alarm? id = none := by
  rw [alarm?_of_task? ht]
  refine Task.alarm?_of_awake fun hsleep => ?_
  simp [inProgress, hsleep] at hbusy

/-- A yield that asks for a timer puts its task to sleep until then. -/
theorem Yields.alarm?_of_armAt {id : TaskId} {now : Instant} {y : YieldResult}
    (h : s.Yields id now y next) {d : Instant} (hd : y.armAt = some d) :
    s.alarm? id = none ∧ next.alarm? id = some d := by
  cases h with
  | nothing _ _ => cases hd
  | sleep task busy _ =>
      cases hd
      exact ⟨alarm?_of_inProgress task busy, (alarm?_insert s id id _ _ _).trans (if_pos rfl)⟩
  | requeue _ _ _ => cases hd

/-- Any other yield puts nobody to sleep. -/
theorem Yields.alarm?_of_not_armAt {id : TaskId} {now : Instant} {y : YieldResult}
    (h : s.Yields id now y next) (hd : y.armAt = none) (j : TaskId) :
    next.alarm? j = s.alarm? j := by
  cases h with
  | nothing _ _ => rfl
  | sleep _ _ _ => cases hd
  | @requeue t task busy _ =>
      exact alarm?_store (u := t.requeue) (alarm?_of_inProgress task busy).symm j

theorem Yields.alarm?_of_ne {id : TaskId} {now : Instant} {y : YieldResult}
    (h : s.Yields id now y next) {j : TaskId} (hne : id ≠ j) : next.alarm? j = s.alarm? j := by
  cases h with
  | nothing _ _ => rfl
  | sleep _ _ _ => exact (alarm?_insert s id j _ _ _).trans (if_neg hne)
  | requeue _ _ _ => exact (alarm?_insert s id j _ _ _).trans (if_neg hne)

end Schedule

/-! ### Timers in their places -/

namespace Scheduler

variable {s next : Scheduler} {id : TaskId}

/-- No timer of a task is pending, and the worker has taken none. -/
def Disarmed (s : Scheduler) (id : TaskId) : Prop :=
  s.timers.deadline? id = none ∧ s.worker ≠ .releasing id

/-- A task's timer is where it should be. -/
structure Clocked (s : Scheduler) (id : TaskId) : Prop where
  /-- A timer that the worker has taken is not pending, and its task sleeps. -/
  taken : s.worker = .releasing id →
    (s.schedule.alarm? id).isSome = true ∧ s.timers.deadline? id = none
  /-- Otherwise the timer of a sleeping task is pending, and no other, until all are dropped. -/
  pending : s.worker ≠ .releasing id →
    s.timers.deadline? id = if s.timers.closed then none else s.schedule.alarm? id

/-- Nothing has happened to a task's sleep and to its timer, unless all timers were dropped. -/
structure SameClock (s next : Scheduler) (id : TaskId) : Prop where
  alarm : next.schedule.alarm? id = s.schedule.alarm? id
  worker : next.worker = .releasing id ↔ s.worker = .releasing id
  timer : (next.timers.closed = s.timers.closed ∧
      next.timers.deadline? id = s.timers.deadline? id) ∨
    (next.timers.closed = true ∧ next.timers.deadline? id = none)

theorem SameClock.of_eq (halarm : next.schedule.alarm? id = s.schedule.alarm? id)
    (htimers : next.timers = s.timers) (hworker : next.worker = s.worker) : s.SameClock next id :=
  ⟨halarm, by rw [hworker], Or.inl ⟨by rw [htimers], by rw [htimers]⟩⟩

theorem SameClock.deadline?_eq_none (h : s.SameClock next id)
    (hnone : s.timers.deadline? id = none) : next.timers.deadline? id = none := by
  rcases h.timer with ⟨-, heq⟩ | ⟨-, heq⟩
  · exact heq.trans hnone
  · exact heq

theorem Disarmed.of_same (h : s.Disarmed id) (hsame : s.SameClock next id) : next.Disarmed id :=
  ⟨hsame.deadline?_eq_none h.1, fun hw => h.2 (hsame.worker.1 hw)⟩

theorem Clocked.of_same (h : s.Clocked id) (hsame : s.SameClock next id) : next.Clocked id where
  taken := by
    intro hw
    obtain ⟨hsleeps, hnone⟩ := h.taken (hsame.worker.1 hw)
    exact ⟨hsame.alarm.symm ▸ hsleeps, hsame.deadline?_eq_none hnone⟩
  pending := by
    intro hw
    have hpending := h.pending fun hw' => hw (hsame.worker.2 hw')
    rcases hsame.timer with ⟨hclosed, heq⟩ | ⟨hclosed, heq⟩
    · rw [heq, hclosed, hsame.alarm]
      exact hpending
    · rw [heq, hclosed]
      rfl

/-- A task that does not sleep has no timer. -/
theorem Clocked.disarmed (h : s.Clocked id) (hawake : s.schedule.alarm? id = none) :
    s.Disarmed id := by
  have hw : s.worker ≠ .releasing id := by
    intro hw
    have hsleeps := (h.taken hw).1
    rw [hawake] at hsleeps
    cases hsleeps
  refine ⟨?_, hw⟩
  rw [h.pending hw, hawake]
  split <;> rfl

/-- Without a timer, a task that does not sleep has what it needs. -/
theorem Disarmed.clocked (h : s.Disarmed id) (hawake : s.schedule.alarm? id = none) :
    s.Clocked id where
  taken := fun hw => absurd hw h.2
  pending := by
    intro _
    rw [h.1, hawake]
    split <;> rfl

/-- Arming the timer of a sleeping task gives it what it needs. -/
theorem Disarmed.clocked_arm (h : s.Disarmed id) {d : Instant}
    (hsleeps : s.schedule.alarm? id = some d) : (s.arm id d).Clocked id where
  taken := fun hw => absurd hw h.2
  pending := by
    intro _
    show (s.timers.arm id d).deadline? id =
      if (s.timers.arm id d).closed then none else s.schedule.alarm? id
    rw [Timers.closed_arm, hsleeps]
    cases hclosed : s.timers.closed with
    | true => exact (congrArg (·.deadline? id) (Timers.arm_of_shutdown hclosed id d)).trans h.1
    | false => exact (Timers.deadline?_arm s.timers hclosed id id d).trans (if_pos rfl)

/-- While timers are armed at all, a task sleeps exactly when its timer is pending for its boundary,
or the worker has taken it. -/
theorem Clocked.sleeps_iff (h : s.Clocked id) (hopen : s.timers.closed = false) {t : Task}
    (ht : s.schedule.task? id = some t) :
    t.state = .sleeping ↔
      s.timers.deadline? id = some t.nextRelease ∨ s.worker = .releasing id := by
  have halarm := Schedule.alarm?_of_task? ht
  constructor
  · intro hsleep
    by_cases hw : s.worker = .releasing id
    · exact Or.inr hw
    · refine Or.inl ((h.pending hw).trans ?_)
      rw [hopen, halarm]
      exact if_pos hsleep
  · -- A task that does not sleep has no timer at all.
    intro htimer
    by_contra hawake
    obtain ⟨hnone, hw⟩ := h.disarmed (halarm.trans (Task.alarm?_of_awake hawake))
    rcases htimer with hpending | htaken
    · rw [hnone] at hpending
      cases hpending
    · exact hw htaken

end Scheduler

/-! ### Calls in charge of a timer -/

namespace Activity

/-- The task that a call inside the registry is about. -/
def subject : Activity → Option TaskId
  | .resolve t _ => some t.id
  | .enroll e _ => some e.info.id
  | .armFirst id _ => some id
  | .cancel id => some id
  | .awaitCallback id => some id
  | .withdraw id => some id
  | .strike id _ => some id
  | .endJob id => some id
  | .armNext id _ => some id
  | _ => none

/-- Whether a call is in charge of a task's timer. -/
def suspends (id : TaskId) : Activity → Bool
  | .armFirst j _ => decide (j = id)
  | .awaitCallback j => decide (j = id)
  | .withdraw j => decide (j = id)
  | .armNext j y => y.armAt.isSome && decide (j = id)
  | _ => false

/-- Whether a call is to drop all timers. -/
def shuts : Activity → Bool
  | .halt => true
  | .join rest => rest.shuts
  | .shutTimers _ => true
  | .awaitWorker rest => rest.shuts
  | .reset _ rest => rest.shuts
  | .post _ rest => rest.shuts
  | _ => false

/-- What a call in charge of a timer relies on. -/
def Awaits (s : Scheduler) : Activity → Prop
  | .armFirst id first => s.schedule.alarm? id = some first ∧ s.Disarmed id
  | .awaitCallback id => s.timers.deadline? id = none ∧
      (s.worker = .releasing id → (s.schedule.alarm? id).isSome = true)
  | .withdraw id => s.Disarmed id
  | .armNext id y => ∀ d, y.armAt = some d → s.schedule.alarm? id = some d ∧ s.Disarmed id
  | _ => True

/-- Whether a call releases a task by hand. -/
def releases : Activity → Bool
  | .call (.release _) => true
  | _ => false

theorem holds_of_subject {a : Activity} {id : TaskId} (h : a.subject = some id) :
    a.holds = true := by
  cases a <;> first | rfl | cases h

theorem subject_of_suspends {a : Activity} {id : TaskId} (h : a.suspends id = true) :
    a.subject = some id := by
  cases a with
  | armFirst j _ => exact congrArg some (of_decide_eq_true h)
  | awaitCallback j => exact congrArg some (of_decide_eq_true h)
  | withdraw j => exact congrArg some (of_decide_eq_true h)
  | armNext j y => exact congrArg some (of_decide_eq_true (Bool.and_eq_true_iff.1 h).2)
  | _ => cases h

theorem suspends_of_outside {a : Activity} (h : a.holds = false) (id : TaskId) :
    a.suspends id = false := by
  cases hs : a.suspends id with
  | false => rfl
  | true =>
      rw [holds_of_subject (subject_of_suspends hs)] at h
      cases h

theorem awaits_of_outside {a : Activity} (h : a.holds = false) (s : Scheduler) : a.Awaits s := by
  cases a <;> trivial

theorem releases_of_closing {a : Activity} (h : a.closing = true) : a.releases = false := by
  cases a <;> first | rfl | cases h

/-- A call in charge of a timer has seen to it that the timer is not pending. -/
theorem Awaits.deadline?_eq_none {s : Scheduler} {a : Activity} {id : TaskId} (h : a.Awaits s)
    (hs : a.suspends id = true) : s.timers.deadline? id = none := by
  cases a with
  | armFirst j _ =>
      cases of_decide_eq_true hs
      exact h.2.1
  | awaitCallback j =>
      cases of_decide_eq_true hs
      exact h.1
  | withdraw j =>
      cases of_decide_eq_true hs
      exact h.1
  | armNext j y =>
      obtain ⟨hsome, hj⟩ := Bool.and_eq_true_iff.1 hs
      cases of_decide_eq_true hj
      obtain ⟨d, hd⟩ := Option.isSome_iff_exists.1 hsome
      exact (h d hd).2.1
  | _ => cases hs

/-- A timer that the worker has taken is awaited by a call, if any is in charge of it, that finds
its task asleep. -/
theorem Awaits.sleeps {s : Scheduler} {a : Activity} {id : TaskId} (h : a.Awaits s)
    (hs : a.suspends id = true) (hw : s.worker = .releasing id) :
    (s.schedule.alarm? id).isSome = true ∧ a = .awaitCallback id := by
  cases a with
  | armFirst j _ =>
      cases of_decide_eq_true hs
      exact absurd hw h.2.2
  | awaitCallback j =>
      cases of_decide_eq_true hs
      exact ⟨h.2 hw, rfl⟩
  | withdraw j =>
      cases of_decide_eq_true hs
      exact absurd hw h.2
  | armNext j y =>
      obtain ⟨hsome, hj⟩ := Bool.and_eq_true_iff.1 hs
      cases of_decide_eq_true hj
      obtain ⟨d, hd⟩ := Option.isSome_iff_exists.1 hsome
      exact absurd hw (h d hd).2.2
  | _ => cases hs

/-- What a call in charge of a timer relies on goes on to hold while nothing happens to it. -/
theorem Awaits.of_same {s next : Scheduler} {a : Activity} (h : a.Awaits s)
    (hsame : ∀ id, a.suspends id = true → s.SameClock next id) : a.Awaits next := by
  cases a with
  | armFirst j first =>
      have hj := hsame j (decide_eq_true rfl)
      exact ⟨hj.alarm.trans h.1, h.2.of_same hj⟩
  | awaitCallback j =>
      have hj := hsame j (decide_eq_true rfl)
      exact ⟨hj.deadline?_eq_none h.1, fun hw => hj.alarm.symm ▸ h.2 (hj.worker.1 hw)⟩
  | withdraw j => exact Scheduler.Disarmed.of_same h (hsame j (decide_eq_true rfl))
  | armNext j y =>
      intro d hd
      have hj := hsame j (by simp [suspends, hd])
      exact ⟨hj.alarm.trans (h d hd).1, (h d hd).2.of_same hj⟩
  | _ => trivial

/-! ### What sections do to timers -/

section Sections

variable {s next : Scheduler} {a rest : Activity}

/-- A section concerns the timer of the task that its call is about. -/
theorem Advances.sameClock (h : Advances s a next rest) (hhand : a.releases = false) {id : TaskId}
    (hid : a.subject ≠ some id) : s.SameClock next id := by
  have hne : ∀ {j}, a.subject = some j → j ≠ id := fun hj heq => hid (heq ▸ hj)
  cases h with
  | release => cases hhand
  | @enroll e first _ =>
      have hput := Schedule.alarm?_put s.schedule (e.asleep first) id
      exact .of_eq (hput.trans (if_neg (hne rfl))) rfl rfl
  | @armFirst j first _ =>
      exact ⟨rfl, Iff.rfl, Or.inl ⟨Timers.closed_arm s.timers j first,
        Timers.deadline?_arm_of_ne s.timers (hne rfl) first⟩⟩
  | @cancel j =>
      have hcancel := Timers.deadline?_cancel s.timers j id
      exact ⟨rfl, Iff.rfl, Or.inl ⟨rfl, hcancel.trans (if_neg (hne rfl))⟩⟩
  | @withdraw j =>
      have hwithdraw := Schedule.alarm?_withdraw s.schedule j id
      exact .of_eq (hwithdraw.trans (if_neg (hne rfl))) rfl rfl
  | endJob ok =>
      have hyields := (Schedule.yields_of_endJob ok).alarm?_of_ne (hne rfl)
      exact .of_eq hyields rfl rfl
  | @armNext j y _ armed =>
      subst armed
      cases hd : y.armAt with
      | none => exact .of_eq rfl rfl rfl
      | some d =>
          exact ⟨rfl, Iff.rfl, Or.inl ⟨Timers.closed_arm s.timers j d,
            Timers.deadline?_arm_of_ne s.timers (hne rfl) d⟩⟩
  | shutTimers => exact ⟨rfl, Iff.rfl, Or.inr ⟨rfl, rfl⟩⟩
  | _ => exact .of_eq rfl rfl rfl

/-- A call leaves the worker alone, and what the worker has in flight. -/
theorem Advances.worker (h : Advances s a next rest) :
    next.worker = s.worker ∧ next.timers.inFlight = s.timers.inFlight := by
  cases h with
  | @armFirst j first _ => exact ⟨rfl, Timers.inFlight_arm s.timers j first⟩
  | @armNext j y _ armed =>
      subst armed
      cases hd : y.armAt with
      | none => exact ⟨rfl, rfl⟩
      | some d => exact ⟨rfl, Timers.inFlight_arm s.timers j d⟩
  | _ => exact ⟨rfl, rfl⟩

/-- **A call that lets go of a timer leaves it where it should be.** -/
theorem Advances.clocked {id : TaskId} (h : Advances s a next rest) (hhand : a.releases = false)
    (hawaits : a.Awaits s) (hclocked : a.suspends id = false → s.Clocked id)
    (hrest : rest.suspends id = false) : next.Clocked id := by
  by_cases hid : a.subject = some id
  · cases h with
    | enroll _ =>
        cases hid
        exact absurd hrest (by simp [suspends])
    | armFirst =>
        cases hid
        exact (hawaits.2.clocked_arm hawaits.1).of_same (.of_eq rfl rfl rfl)
    | cancel =>
        cases hid
        exact absurd hrest (by simp [suspends])
    | await _ =>
        cases hid
        exact absurd hrest (by simp [suspends])
    | withdraw =>
        cases hid
        have hgone := (Schedule.alarm?_withdraw s.schedule id id).trans (if_pos rfl)
        exact Scheduler.Disarmed.clocked (s := (s.withdraw id).2) hawaits hgone
    | @endJob _ _ y _ ok =>
        cases hid
        have harm : y.armAt = none := by simpa [suspends] using hrest
        have hsame := (Schedule.yields_of_endJob ok).alarm?_of_not_armAt harm id
        exact (hclocked rfl).of_same (.of_eq hsame rfl rfl)
    | @armNext _ y _ armed =>
        cases hid
        subst armed
        cases hd : y.armAt with
        | none =>
            have hbefore := hclocked (by simp [suspends, hd])
            exact hbefore.of_same (.of_eq rfl rfl rfl)
        | some d =>
            obtain ⟨hsleeps, hdisarmed⟩ := hawaits d hd
            exact (hdisarmed.clocked_arm hsleeps).of_same (.of_eq rfl rfl rfl)
    | unresolved => exact (hclocked rfl).of_same (.of_eq rfl rfl rfl)
    | resolve => exact hclocked rfl
    | turnedAway => exact (hclocked rfl).of_same (.of_eq rfl rfl rfl)
    | missing _ => exact (hclocked rfl).of_same (.of_eq rfl rfl rfl)
    | strike _ => exact (hclocked rfl).of_same (.of_eq rfl rfl rfl)
    | jobless => exact (hclocked rfl).of_same (.of_eq rfl rfl rfl)
    | _ => cases hid
  · refine (hclocked ?_).of_same (h.sameClock hhand hid)
    rw [← Bool.not_eq_true]
    exact fun hs => hid (subject_of_suspends hs)

/-- **A call takes charge of a timer when it can rely on it.** -/
theorem Advances.awaits (h : Advances s a next rest) (hproper : a.proper = true)
    (hfits : a.holds = true → a.Fits s) (hawaits : a.Awaits s)
    (hflight : ∀ id, s.worker = .releasing id → s.timers.inFlight = some id)
    (hclocked : ∀ id, a.subject = some id → a.suspends id = false → s.Clocked id) :
    rest.Awaits next := by
  cases h with
  | @enroll e first new =>
      have hnone := Schedule.alarm?_of_none ((hfits rfl).agrees.task?_eq_none new)
      refine ⟨(Schedule.alarm?_put s.schedule (e.asleep first) _).trans (if_pos rfl), ?_⟩
      exact (hclocked _ rfl rfl).disarmed hnone
  | @cancel id =>
      exact ⟨(Timers.deadline?_cancel s.timers id id).trans (if_pos rfl),
        fun hw => ((hclocked id rfl rfl).taken hw).1⟩
  | @await id ended =>
      -- The callback that could still have released the task is over.
      refine ⟨hawaits.1, fun hw => ?_⟩
      exact of_decide_eq_true ended (hflight id hw)
  | @endJob id _ y _ ok =>
      intro d hd
      obtain ⟨hawake, hsleeps⟩ := (Schedule.yields_of_endJob ok).alarm?_of_armAt hd
      exact ⟨hsleeps, (hclocked id rfl rfl).disarmed hawake⟩
  | armNext _ => exact awaits_of_outside (holds_of_closing (closing_afterYield _ _)) _
  | @strike _ freed _ _ _ => cases freed <;> trivial
  | unjoined => exact awaits_of_outside (holds_of_closing hproper) _
  | join _ => exact awaits_of_outside (holds_of_closing hproper) _
  | shutTimers => exact awaits_of_outside (holds_of_closing hproper) _
  | awaitWorker => exact awaits_of_outside (holds_of_closing hproper) _
  | reset => exact awaits_of_outside (holds_of_closing hproper) _
  | post => exact awaits_of_outside (holds_of_closing hproper) _
  | _ => trivial

/-- Nobody comes to release a task by hand in the middle of a call. -/
theorem Advances.releases (h : Advances s a next rest) (hproper : a.proper = true) :
    rest.releases = false := by
  cases h with
  | armNext _ => exact releases_of_closing (closing_afterYield _ _)
  | @strike _ freed _ _ _ => cases freed <;> rfl
  | unjoined => exact releases_of_closing hproper
  | join _ => exact releases_of_closing hproper
  | shutTimers => exact releases_of_closing hproper
  | awaitWorker => exact releases_of_closing hproper
  | reset => exact releases_of_closing hproper
  | post => exact releases_of_closing hproper
  | _ => rfl

/-- Nothing puts to sleep, or wakes, the task of a timer that the worker has taken. -/
theorem Advances.alarm?_of_releasing (h : Advances s a next rest) (hhand : a.releases = false)
    (hfits : a.holds = true → a.Fits s) (hawaits : a.Awaits s) {id : TaskId}
    (hw : s.worker = .releasing id) (hsleeps : (s.schedule.alarm? id).isSome = true) :
    next.schedule.alarm? id = s.schedule.alarm? id := by
  by_cases hid : a.subject = some id
  · cases h with
    | enroll new =>
        cases hid
        rw [Schedule.alarm?_of_none ((hfits rfl).agrees.task?_eq_none new)] at hsleeps
        cases hsleeps
    | withdraw =>
        cases hid
        exact absurd hw hawaits.2
    | @endJob _ _ y _ ok =>
        cases hid
        cases hd : y.armAt with
        | none => exact (Schedule.yields_of_endJob ok).alarm?_of_not_armAt hd id
        | some d =>
            rw [((Schedule.yields_of_endJob ok).alarm?_of_armAt hd).1] at hsleeps
            cases hsleeps
    | release => cases hid
    | _ => rfl
  · exact (h.sameClock hhand hid).alarm

/-- Only a stop comes to drop the timers. -/
theorem Advances.shuts (h : Advances s a next rest) (hrest : rest.shuts = true) :
    a.shuts = true ∨ next.stopRequested = true := by
  cases h with
  | stop => exact Or.inr rfl
  | halt => exact Or.inl rfl
  | @armNext id y _ _ =>
      unfold afterYield at hrest
      cases hfreed : y.freedSlot <;> cases hended : Scheduler.endedJob y.outcome <;>
        simp [hfreed, hended, Activity.shuts] at hrest
  | @strike _ freed _ _ _ => cases freed <;> cases hrest
  | unjoined => exact Or.inl hrest
  | join _ => exact Or.inl hrest
  | shutTimers => exact Or.inl rfl
  | awaitWorker => exact Or.inl hrest
  | reset => exact Or.inl hrest
  | post => exact Or.inl hrest
  | _ => cases hrest

theorem Advances.closed (h : Advances s a next rest) (hclosed : next.timers.closed = true) :
    s.timers.closed = true ∨ a.shuts = true := by
  cases h with
  | @armFirst j first _ => exact Or.inl ((Timers.closed_arm s.timers j first).symm.trans hclosed)
  | @armNext j y _ armed =>
      subst armed
      cases hd : y.armAt with
      | none =>
          rw [hd] at hclosed
          exact Or.inl hclosed
      | some d =>
          rw [hd] at hclosed
          exact Or.inl ((Timers.closed_arm s.timers j d).symm.trans hclosed)
  | shutTimers => exact Or.inr rfl
  | _ => exact Or.inl hclosed

theorem Advances.stopRequested (h : Advances s a next rest) (hs : s.stopRequested = true) :
    next.stopRequested = true := by
  cases h with
  | stop => rfl
  | _ => exact hs

end Sections

end Activity

end RateMonotonic
