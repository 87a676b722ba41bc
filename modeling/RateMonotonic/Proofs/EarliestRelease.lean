/-
**No job is released early.**

A job is released by the timer worker or by a late yield.  The worker releases a task whose timer it
has taken, and it has taken that timer when it was due; a yield releases the next job when it finds
the boundary in the past.  Either way the clock has reached the boundary in the task's record, and
that one is as many periods after the first release as jobs have been released before.

A task may be registered under a number whose earlier task was in a callback when it left.  The call
that took the earlier task away has waited for that callback, so a callback that releases the new
task has taken the new task's timer.

Main definitions:
* `Action.time?` — the time that an action reads;
* `System.Forward` — a clock that never goes back while the worker reads it;
* `System.releases` — the actions that release a task's job;
* `System.Enrolled` — a task has been registered since an action of a run;
* `System.OnTime` — what holds when a job of such a task is released.

Main results:
* `System.Timed.due_of_releases` — whoever releases a job finds its boundary to be reached, or has
  the timer for it;
* `System.Taken.due` — a timer that was taken was due;
* `System.Enrolled.counted` — the record of a registered task tells how many jobs were released;
* `System.onTime_after` — **no job is released early**, in any run.
-/

import RateMonotonic.Proofs.Boundaries
import RateMonotonic.Proofs.ReleaseTimers

set_option relaxedAutoImplicit false
set_option autoImplicit false

namespace RateMonotonic

/-! ### Time -/

/-- The time that an action reads. -/
def Action.time? : Action → Option Instant
  | .advance _ _ now => some now
  | .worker now => some now
  | _ => none

/-- The time that a turn of the worker reads. -/
def Action.turn? : Action → Option Instant
  | .worker now => some now
  | _ => none

namespace System

/-- The clock never goes back while the worker reads it in a run.  The readings of the calls need
not be in order with these: a registration may have read the clock long before it came to the
registry. -/
def Forward (run : List Action) : Prop := (run.filterMap Action.turn?).Pairwise (· ≤ ·)

/-- Of two turns of the worker, the later one does not read an earlier time. -/
theorem Forward.le {before since : List Action} {earlier later : Instant}
    (h : Forward (before ++ .worker earlier :: since ++ [.worker later])) : earlier ≤ later := by
  have hpair : Forward ([Action.worker earlier] ++ since ++ [Action.worker later]) := by
    refine h.sublist (List.Sublist.filterMap _ ?_)
    simp
  rw [Forward, List.append_assoc, List.filterMap_append, List.filterMap_append,
    List.pairwise_append] at hpair
  exact hpair.2.2 earlier (by simp [Action.turn?]) later (by simp [Action.turn?])

end System

/-- A boundary until which no time is left has been reached. -/
theorem Task.le_of_timeToRelease {t : Task} {now : Instant} (h : t.timeToRelease now = none) :
    t.nextRelease ≤ now := by
  unfold timeToRelease Instant.timeTo? at h
  split at h
  · cases h
  · next hlate => exact Int.not_lt.1 hlate

/-! ### Who releases a job -/

/-- A step that releases no job leaves none pending where none was. -/
theorem Task.not_goes {t u : Task} (hidle : t.jobPending = false) (hpending : u.jobPending = true)
    (d : Bool) : ¬t.Goes false d u := by
  intro hgoes
  have hflag := hgoes.flags.1
  simp [hidle, hpending] at hflag

/-- A record with a pending job is not the one without. -/
theorem Schedule.task?_ne {s : Schedule} {id : TaskId} {t u : Task} (ht : s.task? id = some t)
    (hidle : t.jobPending = false) (hpending : u.jobPending = true) : s.task? id ≠ some u := by
  intro hu
  rw [ht] at hu
  cases hu
  rw [hidle] at hpending
  cases hpending

/-- A job whose end releases the next one has ended past its boundary. -/
theorem Schedule.le_of_endJob {s next : Schedule} (h : s.Sound) {id j : TaskId} {now : Instant}
    {e : YieldResult} (hend : s.endJob j now = .ok (e, next)) {t u : Task}
    (ht : s.task? id = some t) (hu : next.task? id = some u) (hidle : t.jobPending = false)
    (hpending : u.jobPending = true) : t.nextRelease ≤ now := by
  have hflags := Task.not_goes hidle hpending
  have hyields := Schedule.yields_of_endJob hend
  have hgoes := hyields.goes h ht hu
  cases hyields with
  | nothing _ _ => exact absurd (by simpa using hgoes) (hflags false)
  | sleep _ _ _ => exact absurd (by simpa using hgoes) (hflags false)
  | requeue task _ late =>
      by_cases hj : j = id
      · subst hj
        rw [ht] at task
        cases task
        exact Task.le_of_timeToRelease late
      · exact absurd (by simpa [hj] using hgoes) (hflags false)

/-- Of the sections of a call, only the end of a job releases one, unless the call releases by
hand. -/
theorem Activity.Advances.endsJob {s next : Scheduler} {a rest : Activity}
    (h : Advances s a next rest) (hhand : a.releases = false) (hfits : a.holds = true → a.Fits s)
    {id : TaskId} {t u : Task} (ht : s.schedule.task? id = some t)
    (hu : next.schedule.task? id = some u) (hidle : t.jobPending = false)
    (hpending : u.jobPending = true) : ∃ j, a = .endJob j := by
  have hflags := Task.not_goes hidle hpending
  cases h with
  | release => cases hhand
  | @enroll e first new =>
      have hnone := (hfits rfl).agrees.task?_eq_none new
      exact absurd (Schedule.goes_put (v := e.asleep first) hnone ht hu) (hflags false)
  | withdraw => exact absurd (Schedule.goes_withdraw ht hu) (hflags false)
  | endJob _ => exact ⟨_, rfl⟩
  | _ => exact absurd hu (Schedule.task?_ne ht hidle hpending)

/-- The loop releases no job. -/
theorem Scheduler.LoopSteps.goes {s next : Scheduler} (h : s.LoopSteps next) (hs : s.schedule.Sound)
    {id : TaskId} {t u : Task} (ht : s.schedule.task? id = some t)
    (hu : next.schedule.task? id = some u) : ∃ d, t.Goes false d u := by
  have hsame : next.schedule = s.schedule → ∃ d, t.Goes false d u := by
    intro heq
    rw [heq, ht] at hu
    cases hu
    exact ⟨false, .refl t⟩
  cases h with
  | take _ _ => exact hsame rfl
  | look _ => exact hsame rfl
  | evaluate _ => exact ⟨_, hs.goes_evaluate ht hu⟩
  | @apply r _ =>
      rcases schedule_step s.dispatcher r with heq | ⟨j, heq⟩
      · exact hsame heq
      · have hu' : (s.schedule.confirm j).2.task? id = some u :=
          (congrArg (·.task? id) heq).symm.trans hu
        exact ⟨false, hs.goes_confirm ht hu'⟩

namespace System

section Released

variable {y : System} {id : TaskId} {t u : Task} {now : Instant}

/-- A call that releases a job finds its boundary to be reached. -/
theorem Timed.le_of_advance (h : y.Timed) (hy : y.Kept) {i : ℕ} {resolver : Resolver}
    (ht : y.scheduler.schedule.task? id = some t)
    (hu : (y.act (.advance i resolver now)).scheduler.schedule.task? id = some u)
    (hidle : t.jobPending = false) (hpending : u.jobPending = true) : t.nextRelease ≤ now := by
  have hsame := Schedule.task?_ne ht hidle hpending
  rcases act_advance y i resolver now with heq | ⟨l, a, r, next, rest, hcalls, -, hstep, heq⟩
  · exact absurd (heq ▸ hu) hsame
  · have hmem : a ∈ y.calls := by simp [hcalls]
    have hadvances := Activity.advances_of_step (hy.proper a hmem) hstep
    rw [heq] at hu
    obtain ⟨j, rfl⟩ := hadvances.endsJob (h.byTimer a hmem) (hy.fits a hmem) ht hu hidle hpending
    simp only [Activity.step, Scheduler.endJob] at hstep
    cases hend : y.scheduler.schedule.endJob j now with
    | error e =>
        rw [hend] at hstep
        cases hstep
        exact absurd hu hsame
    | ok p =>
        rw [hend] at hstep
        cases hstep
        exact Schedule.le_of_endJob hy.sound hend ht hu hidle hpending

/-- The worker releases a job of the task whose timer it has taken. -/
theorem Timed.alarm?_of_worker (h : y.Timed) (hy : y.Kept)
    (ht : y.scheduler.schedule.task? id = some t)
    (hu : (y.act (.worker now)).scheduler.schedule.task? id = some u)
    (hidle : t.jobPending = false) (hpending : u.jobPending = true) :
    y.scheduler.worker = .releasing id ∧
      y.scheduler.schedule.alarm? id = some t.nextRelease := by
  have hflags := Task.not_goes hidle hpending
  have hsame := Schedule.task?_ne ht hidle hpending
  have hacts := acts_act hy.proper (.worker now)
  generalize y.act (.worker now) = next at hacts hu
  cases hacts with
  | stutter _ => exact absurd hu hsame
  | worker hworker =>
      cases hworker with
      | @release j releasing =>
          have hgoes := hy.sound.goes_release (j := j) ht hu
          have hj : j = id := by
            by_contra hj
            exact hflags false (by simpa [hj] using hgoes)
          subst hj
          obtain ⟨d, hd⟩ := Option.isSome_iff_exists.1 (h.taken releasing).1
          obtain ⟨v, hv, -, hnext⟩ := Schedule.alarm?_eq_some_iff.1 hd
          rw [ht] at hv
          cases hv
          exact ⟨releasing, hnext ▸ hd⟩
      | _ => exact absurd hu hsame

/-- **Whoever releases a job** has the timer for it, or finds its boundary to be reached. -/
theorem Timed.due_of_releases (h : y.Timed) (hy : y.Kept) {m : Action}
    (ht : y.scheduler.schedule.task? id = some t)
    (hu : (y.act m).scheduler.schedule.task? id = some u) (hidle : t.jobPending = false)
    (hpending : u.jobPending = true) :
    (∃ now, m = .worker now ∧ y.scheduler.worker = .releasing id ∧
      y.scheduler.schedule.alarm? id = some t.nextRelease) ∨
    ∃ i resolver now, m = .advance i resolver now ∧ t.nextRelease ≤ now := by
  have hflags := Task.not_goes hidle hpending
  have hsame := Schedule.task?_ne ht hidle hpending
  cases m with
  | invoke c => cases c <;> exact absurd hu hsame
  | advance i resolver now =>
      exact Or.inr ⟨i, resolver, now, rfl, h.le_of_advance hy ht hu hidle hpending⟩
  | loop =>
      have hacts := acts_act hy.proper .loop
      generalize y.act .loop = next at hacts hu
      cases hacts with
      | stutter _ => exact absurd hu hsame
      | loop hloop =>
          obtain ⟨d, hgoes⟩ := hloop.goes hy.sound ht hu
          exact absurd hgoes (hflags d)
  | worker now => exact Or.inl ⟨now, rfl, h.alarm?_of_worker hy ht hu hidle hpending⟩

end Released

/-- A worker that is about to release a task had begun to before, or has taken a timer of the task
that was due. -/
theorem worker_releasing {y : System} {now : Instant} {id : TaskId}
    (hw : (y.act (.worker now)).scheduler.worker = .releasing id) :
    y.scheduler.worker = .releasing id ∨ ∃ timers, y.scheduler.timers.poll now = (some id, timers) := by
  simp only [act] at hw
  cases hstep : y.scheduler.workerStep now with
  | none =>
      rw [hstep] at hw
      exact Or.inl hw
  | some next =>
      rw [hstep, Option.getD_some] at hw
      unfold Scheduler.workerStep at hstep
      cases hworker : y.scheduler.worker with
      | idle =>
          simp only [hworker] at hstep
          split at hstep
          · cases hstep
          · next hpoll =>
              cases hstep
              cases hw
              exact Or.inr ⟨_, hpoll⟩
      | releasing j =>
          simp only [hworker] at hstep
          split at hstep <;> cases hstep <;> cases hw
      | announcing j =>
          simp only [hworker] at hstep
          cases hstep
          cases hw
      | finishing =>
          simp only [hworker] at hstep
          cases hstep
          cases hw

/-- **A timer that was taken was due.** -/
theorem Taken.due {y : System} {run : List Action} {id : TaskId} {d : Instant}
    (h : y.Taken run id d) (htimed : ∀ before, before <+: run → (y.after before).Timed) :
    ∃ before now since, run = before ++ .worker now :: since ∧ d ≤ now := by
  obtain ⟨before, now, since, rfl, hpending, hsince⟩ := h
  refine ⟨before, now, since, rfl, ?_⟩
  have hw := hsince [] List.nil_prefix
  rw [after_append, after_cons, after_nil] at hw
  rcases worker_releasing hw with hbusy | ⟨timers, hpoll⟩
  · -- The timer was pending, so the worker had not taken it before.
    have hbefore := htimed before (List.prefix_append before _)
    rw [(hbefore.taken hbusy).2] at hpending
    cases hpending
  · obtain ⟨-, -, -, ⟨e, he, hdue⟩, -⟩ := Timers.poll_eq_some hpoll
    rw [hpending] at he
    cases he
    exact hdue

/-! ### Since the registration -/

/-- Whether an action releases a job of a task: a job is pending that was not before. -/
def releases (y : System) (id : TaskId) (m : Action) : Bool :=
  (y.scheduler.schedule.task? id).any (!·.jobPending) &&
    ((y.act m).scheduler.schedule.task? id).any (·.jobPending)

theorem releases_eq_true_iff {y : System} {id : TaskId} {m : Action} :
    y.releases id m = true ↔
      ∃ t u, y.scheduler.schedule.task? id = some t ∧ t.jobPending = false ∧
        (y.act m).scheduler.schedule.task? id = some u ∧ u.jobPending = true := by
  unfold releases
  cases y.scheduler.schedule.task? id <;> cases (y.act m).scheduler.schedule.task? id <;> simp

/-- In a run, a call has taken a task into registry and schedule, and the task has been there ever
since. -/
structure Enrolled (y : System) (before : List Action) (m : Action) (since : List Action)
    (e : RegistryEntry) (first : Instant) : Prop where
  /-- A call has come to the section in which the task is enrolled. -/
  enrolls : ∃ i resolver now, m = .advance i resolver now ∧
    (y.after before).calls[i]? = some (.enroll e first)
  /-- There was no such task. -/
  new : (y.after before).scheduler.schedule.task? e.info.id = none
  /-- There has been one ever since. -/
  ever : y.Since (fun z => (z.scheduler.schedule.task? e.info.id).isSome = true) before m since

variable {y : System} {before since : List Action} {m : Action} {e : RegistryEntry} {first : Instant}

/-- The section that enrolls a task puts it to sleep until its first release, and its call arms the
timer next. -/
theorem Enrolled.start (h : y.Enrolled before m since e first) :
    (y.after (before ++ [m])).scheduler.schedule.task? e.info.id = some (e.asleep first) ∧
      .armFirst e.info.id first ∈ (y.after (before ++ [m])).calls := by
  obtain ⟨i, resolver, now, rfl, hcall⟩ := h.enrolls
  have hstays := h.ever [] List.nil_prefix
  rw [after_append, after_cons, after_nil] at hstays ⊢
  have hnew := h.new
  generalize y.after before = z at hcall hstays hnew
  rcases act_advance z i resolver now with heq | ⟨l, a, r, next, rest, hcalls, ha, hstep, heq⟩
  · rw [heq, hnew] at hstays
    cases hstays
  · rw [hcall] at ha
    cases ha
    rw [heq] at hstays ⊢
    simp only [Activity.step] at hstep
    split at hstep
    · cases hstep
      have hgone : (z.scheduler.leave.schedule.task? e.info.id).isSome = true := hstays
      rw [show z.scheduler.leave.schedule = z.scheduler.schedule from rfl, hnew] at hgone
      cases hgone
    · next henroll =>
        cases hstep
        obtain ⟨-, rfl⟩ := Scheduler.enroll_eq_ok henroll
        exact ⟨(Schedule.task?_put z.scheduler.schedule _ e.info.id).trans (if_pos rfl), by simp⟩

/-- **The record of a registered task tells how many jobs were released.** -/
theorem Enrolled.counted (hy : y.Kept) (h : y.Enrolled before m since e first) :
    ∃ u started, (y.after (before ++ m :: since)).scheduler.schedule.task? e.info.id = some u ∧
      u.Counted first e.info.period
        (tally System.act (releases · e.info.id) (y.after (before ++ [m])) since) started := by
  -- By induction from the end of the run, as every part of it has an end with a record.
  induction since using List.reverseRecOn with
  | nil =>
      exact ⟨_, 0, h.start.1, Task.counted_sleepingUntil e.info.id e.handle e.info.period
        e.info.budget first⟩
  | append_singleton since k ih =>
      have hshorter : y.Enrolled before m since e first :=
        ⟨h.enrolls, h.new, fun more hmore => h.ever more (hmore.trans (List.prefix_append since [k]))⟩
      obtain ⟨u, started, hu, hcounted⟩ := ih hshorter
      obtain ⟨v, hv⟩ := Option.isSome_iff_exists.1 (h.ever _ (List.prefix_refl _))
      have hsplit : before ++ m :: (since ++ [k]) = (before ++ m :: since) ++ [k] := by simp
      have hstart := after_middle y before m since
      have hbefore := hy.after (before ++ m :: since)
      rw [hsplit, after_append, after_cons, after_nil] at hv ⊢
      obtain ⟨r, d, hgoes⟩ := hbefore.sound.goes_moves (hbefore.moves k) hu hv
      refine ⟨v, started + d.toNat, hv, ?_⟩
      have hr : r = releases (y.after (before ++ m :: since)) e.info.id k := by
        rw [hgoes.flags.1, releases, hu, hv]
        rfl
      have hnext := hcounted.goes hgoes
      rw [tally_concat, show List.foldl System.act _ since = _ from hstart.symm, ← hr]
      exact hnext

/-- A callback that is about to release the task has taken its timer since the task was registered:
the call that has enrolled the task has found the worker elsewhere. -/
theorem Enrolled.taken (hy : y.Kept) (h : y.Enrolled before m since e first)
    (htimed : ∀ part, part <+: before ++ m :: since → (y.after part).Timed) {d : Instant}
    (hw : (y.after (before ++ m :: since)).scheduler.worker = .releasing e.info.id)
    (hd : (y.after (before ++ m :: since)).scheduler.schedule.alarm? e.info.id = some d) :
    (y.after (before ++ [m])).Taken since e.info.id d := by
  have hstart : (y.after (before ++ [m])).Timed :=
    htimed (before ++ [m]) ⟨since, by simp⟩
  have helsewhere : (y.after (before ++ [m])).scheduler.worker ≠ .releasing e.info.id :=
    (hstart.awaits _ h.start.2).2.2
  rw [after_middle] at hw hd
  refine (hy.after (before ++ [m])).taken_since helsewhere since (fun part hpart => ?_) hw hd
  rw [← after_middle]
  exact htimed _ ((List.prefix_append_right_inj before).2 (List.cons_prefix_cons.2 ⟨rfl, hpart⟩))

/-! ### Releases on time -/

/-- What holds when an action releases a job of a task that has been registered since an action of
the run. -/
structure OnTime (y : System) (before : List Action) (m : Action) (since : List Action) (k : Action)
    (e : RegistryEntry) (first : Instant) : Prop where
  /-- The task is ready. -/
  ready : ∃ u, ((y.after (before ++ m :: since)).act k).scheduler.schedule.task? e.info.id = some u ∧
    u.state = .ready
  /-- The action reads a time that is not before the job's boundary: this is as many periods after
  the first release as jobs have been released before. -/
  due : ∃ now, k.time? = some now ∧ ∀ b : Instant,
    b.nanos = first.nanos + tally System.act (releases · e.info.id) (y.after (before ++ [m])) since *
      e.info.period.nanos → b ≤ now
  /-- A callback that releases the job has taken its timer since the task was registered. -/
  own : (∃ now, k = .worker now) → ∃ d, (y.after (before ++ [m])).Taken since e.info.id d

/-- **No job is released early.** -/
theorem onTime_after {c : Config} {s : Scheduler} (hs : Scheduler.new c = .ok s) {run : List Action}
    (hhand : ∀ id, .invoke (.release id) ∉ run) (hclock : Forward run)
    {before since : List Action} {m k : Action} (hrun : before ++ m :: since ++ [k] <+: run)
    {e : RegistryEntry} {first : Instant} (hregistered : (idle s).Enrolled before m since e first)
    (hreleases : ((idle s).after (before ++ m :: since)).releases e.info.id k = true) :
    (idle s).OnTime before m since k e first := by
  obtain ⟨-, rfl⟩ := Scheduler.new_eq_ok hs
  have hkept := kept_idle c
  have htimed : ∀ part, part <+: before ++ m :: since →
      ((idle (Scheduler.ofConfig c)).after part).Timed := by
    intro part hpart
    have hpart' := (hpart.trans (List.prefix_append _ [k])).trans hrun
    exact timed_after c part fun id hm => hhand id (hpart'.subset hm)
  -- The record before the release tells how many jobs were released, and when the next one is due.
  obtain ⟨u, started, hu, hcounted⟩ := hregistered.counted hkept
  obtain ⟨t, v, ht, hidle, hv, hpending⟩ := releases_eq_true_iff.1 hreleases
  rw [hu] at ht
  cases ht
  have hbefore := hkept.after (before ++ m :: since)
  have hready := (hbefore.act k).sound.pending e.info.id v hv hpending
  rcases (htimed _ (List.prefix_refl _)).due_of_releases hbefore hu hv hidle hpending with
    ⟨now, rfl, hw, hd⟩ | ⟨i, resolver, now, rfl, hlate⟩
  · have htaken := hregistered.taken hkept htimed hw hd
    obtain ⟨before', now', since', rfl, hdue⟩ := htaken.due fun part hpart => by
      rw [← after_middle]
      exact htimed _ ((List.prefix_append_right_inj before).2
        (List.cons_prefix_cons.2 ⟨rfl, hpart⟩))
    have hclock' : Forward ((before ++ m :: before') ++ .worker now' :: since' ++ [.worker now]) := by
      refine hclock.sublist (List.Sublist.filterMap _ ?_)
      simpa using hrun.sublist
    have hle : now' ≤ now := hclock'.le
    refine ⟨⟨v, hv, hready⟩, ⟨now, rfl, fun b hb => ?_⟩, fun _ => ⟨_, htaken⟩⟩
    rw [hcounted.eq_nextRelease hidle hb]
    exact Int.le_trans hdue hle
  · refine ⟨⟨v, hv, hready⟩, ⟨now, rfl, fun b hb => ?_⟩, ?_⟩
    · rw [hcounted.eq_nextRelease hidle hb]
      exact hlate
    · rintro ⟨_, hk⟩
      cases hk

/-- A task is registered, and leaves while its timer's callback is about to release it; it is
registered again two seconds later, and the worker takes the new timer. -/
def returning : List Action × List Action :=
  (.invoke (.register ⟨⟨1⟩, Duration.ofMillis 100, Duration.ofMillis 1⟩) ::
      sections 0 4 Instant.start ++
    .worker Instant.start :: .invoke (.deregister ⟨1⟩) :: sections 1 2 Instant.start ++
    .worker Instant.start :: .worker Instant.start :: .worker Instant.start ::
      sections 1 4 Instant.start ++
    .invoke (.register ⟨⟨1⟩, Duration.ofMillis 200, Duration.ofMillis 1⟩) ::
      sections 2 2 twoSeconds,
    sections 2 1 twoSeconds ++ [.worker twoSeconds])

theorem onTime_returning :
    let e : RegistryEntry := ⟨⟨⟨1⟩, Duration.ofMillis 200, Duration.ofMillis 1⟩, ⟨1⟩⟩
    let m : Action := .advance 2 (fun id => some ⟨id.number⟩) twoSeconds
    let run := returning.1 ++ m :: returning.2 ++ [.worker twoSeconds]
    Scheduler.new Config.default = .ok (Scheduler.ofConfig Config.default) ∧
      (∀ id, .invoke (.release id) ∉ run) ∧ Forward run ∧
      (idle (Scheduler.ofConfig Config.default)).Enrolled returning.1 m returning.2 e twoSeconds ∧
      ((idle (Scheduler.ofConfig Config.default)).after (returning.1 ++ m :: returning.2)).releases
        e.info.id (.worker twoSeconds) = true ∧
      (idle (Scheduler.ofConfig Config.default)).OnTime returning.1 m returning.2
        (.worker twoSeconds) e twoSeconds := by
  intro e m run
  have hhand : ∀ id, Action.invoke (.release id) ∉ run := by
    simp [run, m, returning, sections]
  have hclock : Forward run := by
    unfold Forward
    decide
  have hregistered :
      (idle (Scheduler.ofConfig Config.default)).Enrolled returning.1 m returning.2 e twoSeconds := by
    refine ⟨⟨2, _, twoSeconds, rfl, by rfl⟩, by rfl, fun more hmore => ?_⟩
    have hall : ∀ part ∈ returning.2.inits,
        (((idle (Scheduler.ofConfig Config.default)).after
          (returning.1 ++ m :: part)).scheduler.schedule.task? e.info.id).isSome = true := by
      decide
    exact hall more ((List.mem_inits more returning.2).2 hmore)
  have hreleases : ((idle (Scheduler.ofConfig Config.default)).after
      (returning.1 ++ m :: returning.2)).releases e.info.id (.worker twoSeconds) = true := by
    decide
  exact ⟨rfl, hhand, hclock, hregistered, hreleases,
    onTime_after (c := Config.default) rfl hhand hclock (List.prefix_refl _) hregistered hreleases⟩

end System

end RateMonotonic
