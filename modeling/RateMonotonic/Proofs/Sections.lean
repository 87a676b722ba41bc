/-
**What the next section of a call, or the next step of a thread, can do.**

A call takes its sections one at a time, and the dispatcher loop and the timer worker take their
steps between them.  This module says once what each of them can do, and derives from it what the
sections do to registry and schedule: every section keeps a schedule sound, only a call inside the
registry changes what is registered, and what such a call has found out stays true until it leaves.

Main definitions:
* `Activity.Advances`, `Scheduler.LoopSteps`, `Scheduler.WorkerSteps` — what the next section of a
  call, or the next step of a thread, can do;
* `Activity.holds`, `Activity.Fits` — the calls inside the registry, and what they rely on;
* `Activity.proper` — the calls that leave the dispatcher's rounds to the loop.

Main results:
* `Activity.advances_of_step`, `Scheduler.loopSteps_of_loopStep`,
  `Scheduler.workerSteps_of_workerStep` — **the next section or step does one of these things**;
* `Activity.Advances.inside`, `Activity.Advances.enters`, `Activity.Advances.outside` — calls inside
  the registry, entering it, and outside;
* `Activity.Advances.moves`, `Scheduler.LoopSteps.moves`, `Scheduler.WorkerSteps.moves` — a section
  or a step touches the schedule once at most.
-/

import RateMonotonic.Proofs.RegistryAgreement
import RateMonotonic.Scheduler.Activity
import RateMonotonic.Scheduler.Thread

set_option relaxedAutoImplicit false
set_option autoImplicit false

namespace RateMonotonic

/-! ### What the next section of a call can do -/

namespace Activity

/-- Whether nothing but waiting, resetting and waking remains of a call. -/
def closing : Activity → Bool
  | .join rest => rest.closing
  | .shutTimers rest => rest.closing
  | .awaitWorker rest => rest.closing
  | .reset _ rest => rest.closing
  | .post _ rest => rest.closing
  | .answered _ => true
  | _ => false

/-- Whether something remains of a call that is not a round of the dispatcher by hand. -/
def proper : Activity → Bool
  | .call .dispatch => false
  | .round _ => false
  | .join rest => rest.closing
  | .shutTimers rest => rest.closing
  | .awaitWorker rest => rest.closing
  | .reset _ rest => rest.closing
  | .post _ rest => rest.closing
  | _ => true

/-- Whether a call is inside the registry. -/
def holds : Activity → Bool
  | .resolve _ _ => true
  | .enroll _ _ => true
  | .armFirst _ _ => true
  | .cancel _ => true
  | .awaitCallback _ => true
  | .withdraw _ => true
  | .strike _ _ => true
  | .endJob _ => true
  | .armNext _ _ => true
  | _ => false

/-- The task that a call has taken out of the schedule, and not yet out of the registry. -/
def leaving : Activity → Option TaskId
  | .strike id _ => some id
  | _ => none

/-- The task that a call has found to be registered. -/
def target : Activity → Option TaskId
  | .cancel id => some id
  | .awaitCallback id => some id
  | .withdraw id => some id
  | .strike id _ => some id
  | .endJob id => some id
  | .armNext id _ => some id
  | _ => none

/-- What the next section of a call can do to the scheduler, and what remains of the call. -/
inductive Advances (s : Scheduler) : Activity → Scheduler → Activity → Prop where
  -- A call begins: it is answered at once, enters the registry, or goes on without it.
  | refuse {c : Call} {x : Answer} : Advances s (.call c) s (.answered x)
  | register {t : TaskInfo} {first : Instant} (free : s.registry.held = false) :
      Advances s (.call (.register t)) s.holding (.resolve t first)
  | deregister {id : TaskId} (free : s.registry.held = false)
      (listed : s.registry.contains id = true) :
      Advances s (.call (.deregister id)) s.holding (.cancel id)
  | beginYield {id : TaskId} (free : s.registry.held = false)
      (listed : s.registry.contains id = true) :
      Advances s (.call (.beginYield id)) s.holding (.endJob id)
  | start : Advances s (.call .start) s .startLoop
  | stop : Advances s (.call .stop) { s with stopRequested := true } .halt
  | release {id : TaskId} :
      Advances s (.call (.release id)) (s.releaseTask id).2 (.post (.released id) finished)
  -- A registration.
  | unresolved {t : TaskInfo} {first : Instant} {x : Answer} :
      Advances s (.resolve t first) s.leave (.answered x)
  | resolve {t : TaskInfo} {first : Instant} {handle : ExecHandle} :
      Advances s (.resolve t first) s (.enroll ⟨t, handle⟩ first)
  | turnedAway {e : RegistryEntry} {first : Instant} {x : Answer} :
      Advances s (.enroll e first) s.leave (.answered x)
  | enroll {e : RegistryEntry} {first : Instant}
      (new : s.registry.contains e.info.id = false) :
      Advances s (.enroll e first) (s.enrolled e first) (.armFirst e.info.id first)
  | armFirst {id : TaskId} {first : Instant} {x : Answer} :
      Advances s (.armFirst id first) (s.arm id first).leave (.answered x)
  -- A deregistration.
  | cancel {id : TaskId} : Advances s (.cancel id) (s.cancel id) (.awaitCallback id)
  | await {id : TaskId} (ended : s.timers.cancelMayReturn id = true) :
      Advances s (.awaitCallback id) s (.withdraw id)
  | withdraw {id : TaskId} :
      Advances s (.withdraw id) (s.withdraw id).2 (.strike id (s.withdraw id).1)
  | missing {id : TaskId} {freed : Bool} {x : Answer}
      (absent : s.registry.contains id = false) :
      Advances s (.strike id freed) s.leave (.answered x)
  | strike {id : TaskId} {freed : Bool} {e : RegistryEntry} {x : Answer}
      (found : s.registry.find? id = some e) :
      Advances s (.strike id freed) (s.struck id)
        (if freed then .reset e.handle (.post (.deregistered id) (.answered x))
          else .post (.deregistered id) (.answered x))
  -- A yield.
  | jobless {id : TaskId} {x : Answer} : Advances s (.endJob id) s.leave (.answered x)
  | endJob {id : TaskId} {now : Instant} {y : YieldResult} {next : Schedule}
      (ok : s.schedule.endJob id now = .ok (y, next)) :
      Advances s (.endJob id) (s.withSchedule next) (.armNext id y)
  | armNext {id : TaskId} {y : YieldResult} {timers : Timers TaskId}
      (armed : timers = (s.armAt id y.armAt).timers) :
      Advances s (.armNext id y) { s with timers := timers, registry := s.registry.leave }
        (afterYield id y)
  -- A start or a stop.
  | started : Advances s .startLoop s finished
  | startLoop (fresh : s.joinable = false) :
      Advances s .startLoop { s with joinable := true, loop := .waiting } (.post .started finished)
  | halt :
      Advances s .halt s.halt.2
        (.post .stopped (.join (.shutTimers (.awaitWorker (after .reset s.halt.1 finished)))))
  | unjoined {rest : Activity} : Advances s (.join rest) s rest
  | join {rest : Activity} (ended : s.loop = .ended) :
      Advances s (.join rest) { s with joinable := false } rest
  | shutTimers {rest : Activity} : Advances s (.shutTimers rest) s.shutTimers rest
  | awaitWorker {rest : Activity} : Advances s (.awaitWorker rest) s rest
  -- What any call may end with.
  | reset {handle : ExecHandle} {rest : Activity} :
      Advances s (.reset handle rest) (s.reset handle) rest
  | post {wake : Wake} {rest : Activity} : Advances s (.post wake rest) (s.post wake) rest

/-- **A registration begins**: it is refused without a trace, or it enters the registry. -/
theorem begin_register {s : Scheduler} (h : s.registry.held = false) (now : Instant)
    (t : TaskInfo) :
    begin s now (.register t) =
      match s.checkTiming now t with
      | .error e => (s, .answered (.error e))
      | .ok first =>
          match s.checkCandidate t with
          | .error e => (s, .answered (.error e))
          | .ok () => (s.holding, .resolve t first) := by
  have hcand : s.holding.checkCandidate t = s.checkCandidate t := rfl
  simp only [begin, Scheduler.enter_eq h, hcand]
  cases s.checkTiming now t with
  | error e => rfl
  | ok first =>
      cases s.checkCandidate t with
      | error e => simp only [Scheduler.leave_holding h]
      | ok _ => rfl

theorem advances_of_begin (s : Scheduler) (now : Instant) {c : Call}
    (hc : (Activity.call c).proper = true) :
    Advances s (.call c) (begin s now c).1 (begin s now c).2 := by
  cases c with
  | register t =>
      simp only [begin]
      cases s.checkTiming now t with
      | error e => exact .refuse
      | ok first =>
          cases hheld : s.registry.held with
          | true =>
              simp only [Scheduler.enter_of_held hheld]
              exact .refuse
          | false =>
              simp only [Scheduler.enter_eq hheld]
              cases s.holding.checkCandidate t with
              | error e =>
                  simp only [Scheduler.leave_holding hheld]
                  exact .refuse
              | ok _ => exact .register hheld
  | deregister id =>
      simp only [begin]
      cases henter : s.enterFor id with
      | error e => exact .refuse
      | ok inside =>
          obtain ⟨hfree, hlisted, rfl⟩ := Scheduler.enterFor_eq_ok_iff.1 henter
          exact .deregister hfree hlisted
  | beginYield id =>
      simp only [begin]
      cases henter : s.enterFor id with
      | error e => exact .refuse
      | ok inside =>
          obtain ⟨hfree, hlisted, rfl⟩ := Scheduler.enterFor_eq_ok_iff.1 henter
          exact .beginYield hfree hlisted
  | start =>
      simp only [begin]
      split
      · exact .refuse
      · exact .start
  | stop =>
      simp only [begin]
      split
      · exact .refuse
      · exact .stop
  | release id =>
      have hrelease : s.releaseTask id =
          ((s.schedule.release id).1, s.withSchedule (s.schedule.release id).2) := rfl
      rcases Schedule.release_cases s.schedule id with ⟨t, -, -, heq⟩ | ⟨hne, heq⟩
      · have hbegin : begin s now (.release id) =
            ((s.releaseTask id).2, .post (.released id) finished) := by
          rw [begin, hrelease, heq]
        rw [hbegin]
        exact .release
      · have hbegin : begin s now (.release id) = (s, finished) := by
          rw [begin, hrelease, heq]
          cases hout : (s.schedule.release id).1 with
          | released => exact absurd hout hne
          | unknown => rfl
          | ignored state => rfl
        rw [hbegin]
        exact .refuse
  | dispatch => cases hc

/-- **The next section of a call does one of these things.** -/
theorem advances_of_step {s next : Scheduler} {resolver : Resolver} {now : Instant}
    {a rest : Activity} (ha : a.proper = true) (h : a.step s resolver now = some (next, rest)) :
    Advances s a next rest := by
  cases a with
  | call c =>
      have hbegin : begin s now c = (next, rest) := Option.some.inj h
      have hadvances := advances_of_begin s now ha
      rwa [hbegin] at hadvances
  | resolve t first =>
      simp only [step] at h
      split at h <;> cases h
      · exact .unresolved
      · exact .resolve
  | enroll e first =>
      simp only [step] at h
      split at h <;> cases h
      · exact .turnedAway
      · next ok =>
          obtain ⟨hnew, rfl⟩ := Scheduler.enroll_eq_ok ok
          exact .enroll hnew
  | armFirst id first =>
      cases h
      exact .armFirst
  | cancel id =>
      cases h
      exact .cancel
  | awaitCallback id =>
      simp only [step] at h
      split at h <;> cases h
      next hover => exact .await hover
  | withdraw id =>
      cases h
      exact .withdraw
  | strike id freed =>
      simp only [step] at h
      split at h
      · next e herr =>
          cases h
          refine .missing ?_
          cases hc : s.registry.contains id with
          | false => rfl
          | true =>
              obtain ⟨e, -, hrem⟩ := Registry.remove_of_contains hc
              simp [Scheduler.strike, hrem] at herr
      · next ok =>
          cases h
          obtain ⟨hfound, rfl⟩ := Scheduler.strike_eq_ok ok
          exact .strike hfound
  | endJob id =>
      simp only [step, Scheduler.endJob] at h
      cases hend : s.schedule.endJob id now with
      | error e =>
          simp only [hend] at h
          cases h
          exact .jobless
      | ok r =>
          simp only [hend] at h
          cases h
          exact .endJob hend
  | armNext id y =>
      cases h
      cases hd : y.armAt with
      | none => exact .armNext (by rw [hd])
      | some d => exact .armNext (by rw [hd])
  | startLoop =>
      simp only [step] at h
      split at h <;> cases h
      · exact .started
      · next hj => exact .startLoop (by simpa using hj)
  | halt =>
      cases h
      exact .halt
  | join rest =>
      simp only [step] at h
      split at h
      · cases h
        exact .unjoined
      · split at h <;> cases h
        next hended => exact .join hended
  | shutTimers rest =>
      cases h
      exact .shutTimers
  | awaitWorker rest =>
      simp only [step] at h
      split at h <;> cases h
      exact .awaitWorker
  | round r => cases ha
  | reset handle rest =>
      cases h
      exact .reset
  | post wake rest =>
      cases h
      exact .post
  | answered x => cases h

theorem closing_afterYield (id : TaskId) (y : YieldResult) :
    (afterYield id y).closing = true := by
  unfold afterYield
  cases y.freedSlot <;> cases Scheduler.endedJob y.outcome <;> rfl

theorem proper_of_closing {a : Activity} (h : a.closing = true) : a.proper = true := by
  cases a <;> first | exact h | rfl | cases h

theorem holds_of_closing {a : Activity} (h : a.closing = true) : a.holds = false := by
  cases a <;> first | rfl | cases h

/-- No call comes to a round of the dispatcher by hand. -/
theorem Advances.proper {s next : Scheduler} {a rest : Activity} (h : Advances s a next rest)
    (ha : a.proper = true) : rest.proper = true := by
  cases h with
  | armNext => exact proper_of_closing (closing_afterYield _ _)
  | @strike _ freed _ _ _ => cases freed <;> rfl
  | halt => cases s.halt.1 <;> rfl
  | unjoined => exact proper_of_closing ha
  | join _ => exact proper_of_closing ha
  | shutTimers => exact proper_of_closing ha
  | awaitWorker => exact proper_of_closing ha
  | reset => exact proper_of_closing ha
  | post => exact proper_of_closing ha
  | _ => rfl

/-! ### Inside the registry -/

/-- What a call inside the registry relies on. -/
structure Fits (s : Scheduler) (a : Activity) : Prop where
  /-- The registry is held. -/
  held : s.registry.held = true
  /-- Registry and schedule agree, up to the task that is leaving. -/
  agrees : s.Matches a.leaving
  /-- The task that the call is about is registered. -/
  listed : ∀ id, a.target = some id → s.registry.contains id = true

/-- A call outside the registry changes neither what is registered nor the parameters of a task. -/
theorem Advances.outside {s next : Scheduler} {a rest : Activity} (h : Advances s a next rest)
    (ha : a.holds = false) :
    next.registry.entries = s.registry.entries ∧ s.schedule.SameEntries next.schedule := by
  cases h with
  | release => exact ⟨rfl, Schedule.sameEntries_release s.schedule _⟩
  | unresolved => cases ha
  | turnedAway => cases ha
  | jobless => cases ha
  | missing _ => cases ha
  | enroll _ => cases ha
  | armFirst => cases ha
  | withdraw => cases ha
  | strike _ => cases ha
  | endJob _ => cases ha
  | armNext => cases ha
  | _ => exact ⟨rfl, fun _ => rfl⟩

/-- What a section does to the list of registered tasks: two sections change it. -/
theorem Advances.entries_cases {s next : Scheduler} {a rest : Activity}
    (h : Advances s a next rest) :
    next.registry.entries = s.registry.entries ∨
      (∃ e first, a = .enroll e first ∧ s.registry.contains e.info.id = false ∧
        next.registry.entries = s.registry.entries ++ [e]) ∨
      (∃ id freed, a = .strike id freed ∧
        next.registry.entries = s.registry.entries.eraseP (·.info.id = id)) := by
  cases h with
  | enroll new => exact Or.inr (Or.inl ⟨_, _, rfl, new, rfl⟩)
  | strike _ => exact Or.inr (Or.inr ⟨_, _, rfl, rfl⟩)
  | _ => exact Or.inl rfl

/-- No section changes the configuration. -/
theorem Advances.config {s next : Scheduler} {a rest : Activity} (h : Advances s a next rest) :
    next.config = s.config := by
  cases h <;> rfl

/-- A call outside the registry stays outside and leaves it as it is, or enters a free registry. -/
theorem Advances.enters {s next : Scheduler} {a rest : Activity} (h : Advances s a next rest)
    (ha : a.proper = true) (hout : a.holds = false) :
    (rest.holds = false ∧ next.registry.held = s.registry.held) ∨
      (rest.holds = true ∧ s.registry.held = false ∧ (s.Matches none → rest.Fits next)) := by
  cases h with
  | register free =>
      refine Or.inr ⟨rfl, free, fun hm => ⟨rfl, ?_, by simp [target]⟩⟩
      exact hm.of_sameEntries rfl fun _ => rfl
  | deregister free listed =>
      refine Or.inr ⟨rfl, free, fun hm => ⟨rfl, hm.of_sameEntries rfl fun _ => rfl, ?_⟩⟩
      rintro id ⟨⟩
      exact listed
  | beginYield free listed =>
      refine Or.inr ⟨rfl, free, fun hm => ⟨rfl, hm.of_sameEntries rfl fun _ => rfl, ?_⟩⟩
      rintro id ⟨⟩
      exact listed
  | unresolved => cases hout
  | turnedAway => cases hout
  | jobless => cases hout
  | missing _ => cases hout
  | resolve => cases hout
  | enroll _ => cases hout
  | armFirst => cases hout
  | cancel => cases hout
  | await => cases hout
  | withdraw => cases hout
  | strike _ => cases hout
  | endJob _ => cases hout
  | armNext => cases hout
  | unjoined => exact Or.inl ⟨holds_of_closing ha, rfl⟩
  | join _ => exact Or.inl ⟨holds_of_closing ha, rfl⟩
  | shutTimers => exact Or.inl ⟨holds_of_closing ha, rfl⟩
  | awaitWorker => exact Or.inl ⟨holds_of_closing ha, rfl⟩
  | reset => exact Or.inl ⟨holds_of_closing ha, rfl⟩
  | post => exact Or.inl ⟨holds_of_closing ha, rfl⟩
  | _ => exact Or.inl ⟨rfl, rfl⟩

/-- What a call inside the registry relies on goes on to hold, until the call leaves. -/
theorem Advances.inside {s next : Scheduler} {a rest : Activity} (h : Advances s a next rest)
    (ha : a.holds = true) (hfits : a.Fits s) :
    (rest.holds = true ∧ rest.Fits next) ∨
      (rest.holds = false ∧ next.registry.held = false ∧ next.Matches none) := by
  have hsame : ∀ t : Scheduler, t.registry.entries = s.registry.entries →
      s.schedule.SameEntries t.schedule → t.Matches a.leaving :=
    fun t hreg hentries => hfits.agrees.of_sameEntries hreg hentries
  cases h with
  | unresolved => exact Or.inr ⟨rfl, rfl, hsame _ rfl fun _ => rfl⟩
  | turnedAway => exact Or.inr ⟨rfl, rfl, hsame _ rfl fun _ => rfl⟩
  | jobless => exact Or.inr ⟨rfl, rfl, hsame _ rfl fun _ => rfl⟩
  | missing absent =>
      rw [hfits.listed _ rfl] at absent
      cases absent
  | resolve => exact Or.inl ⟨rfl, hfits.held, hfits.agrees, by simp [target]⟩
  | @enroll e first new =>
      exact Or.inl ⟨rfl, hfits.held, hfits.agrees.enrolled new first, by simp [target]⟩
  | armFirst => exact Or.inr ⟨rfl, rfl, hsame _ rfl fun _ => rfl⟩
  | cancel => exact Or.inl ⟨rfl, hfits.held, hsame _ rfl fun _ => rfl, hfits.listed⟩
  | await => exact Or.inl ⟨rfl, hfits.held, hfits.agrees, hfits.listed⟩
  | @withdraw id => exact Or.inl ⟨rfl, hfits.held, hfits.agrees.withdraw id, hfits.listed⟩
  | @strike id freed e x _ =>
      exact Or.inr ⟨by cases freed <;> rfl, rfl, hfits.agrees.struck⟩
  | endJob ok =>
      refine Or.inl ⟨rfl, hfits.held, hsame _ rfl ?_, hfits.listed⟩
      exact (Schedule.yields_of_endJob ok).sameEntries
  | @armNext id y _ =>
      exact Or.inr ⟨holds_of_closing (closing_afterYield id y), rfl, hsame _ rfl fun _ => rfl⟩
  | _ => cases ha

/-- The next section of a call touches the schedule once at most. -/
theorem Advances.moves {s next : Scheduler} {a rest : Activity} (h : Advances s a next rest)
    (hfits : a.holds = true → a.Fits s) : s.schedule.Moves next.schedule := by
  cases h with
  | release => exact .release _
  | enroll new => exact .put _ ((hfits rfl).agrees.task?_eq_none new)
  | withdraw => exact .withdraw _
  | endJob ok => exact .yields (Schedule.yields_of_endJob ok)
  | halt => exact .stop
  | _ => exact .stay

end Activity

/-! ### What the next step of a thread can do -/

namespace Scheduler

/-- What the next step of the dispatcher loop can do. -/
inductive LoopSteps (s : Scheduler) : Scheduler → Prop where
  | take {wake : Wake} {waits : Wakes} (waiting : s.loop = .waiting)
      (wakes : s.wakes.take? = some (wake, waits)) :
      LoopSteps s { s with wakes := waits, loop := if wake = .stopped then .ended else .woken }
  | look (woken : s.loop = .woken) :
      LoopSteps s { s with loop := if s.stopRequested then .ended else .cleared }
  | evaluate (cleared : s.loop = .cleared) :
      LoopSteps s { s with
        dispatcher := s.dispatcher.evaluate.2
        loop := loopAfter (Round.ofDecision s.schedule.evaluate.1) }
  | apply {r : Round} (applying : s.loop = .applying r) :
      LoopSteps s { s with
        dispatcher := (r.step s.dispatcher).1
        loop := loopAfter (r.step s.dispatcher).2 }

theorem loopSteps_of_loopStep {s next : Scheduler} (h : s.loopStep = some next) :
    s.LoopSteps next := by
  unfold loopStep at h
  cases hloop : s.loop with
  | absent => simp [hloop] at h
  | ended => simp [hloop] at h
  | waiting =>
      simp only [hloop] at h
      split at h <;> cases h
      next hwakes => exact .take hloop hwakes
  | woken =>
      simp only [hloop] at h
      cases h
      exact .look hloop
  | cleared =>
      simp only [hloop] at h
      cases h
      exact .evaluate hloop
  | applying r =>
      simp only [hloop] at h
      cases h
      exact .apply hloop

/-- What the next step of the timer worker can do. -/
inductive WorkerSteps (s : Scheduler) : Scheduler → Prop where
  | take {id : TaskId} {timers : Timers TaskId} {now : Instant} (idle : s.worker = .idle)
      (polled : s.timers.poll now = (some id, timers)) :
      WorkerSteps s { s with timers := timers, worker := .releasing id }
  | release {id : TaskId} (releasing : s.worker = .releasing id) :
      WorkerSteps s { (s.releaseTask id).2 with worker := .announcing id }
  | pass {id : TaskId} (releasing : s.worker = .releasing id)
      (unreleased : (s.schedule.release id).1 ≠ .released) :
      WorkerSteps s { s with worker := .finishing }
  | announce {id : TaskId} (announcing : s.worker = .announcing id) :
      WorkerSteps s { s.post (.released id) with worker := .finishing }
  | finish (finishing : s.worker = .finishing) :
      WorkerSteps s { s with timers := s.timers.finish, worker := .idle }

theorem workerSteps_of_workerStep {s next : Scheduler} {now : Instant}
    (h : s.workerStep now = some next) : s.WorkerSteps next := by
  unfold workerStep at h
  cases hworker : s.worker with
  | idle =>
      simp only [hworker] at h
      split at h <;> cases h
      next hpolled => exact .take hworker hpolled
  | releasing id =>
      have hrelease : s.releaseTask id =
          ((s.schedule.release id).1, s.withSchedule (s.schedule.release id).2) := rfl
      simp only [hworker, hrelease] at h
      rcases Schedule.release_cases s.schedule id with ⟨t, -, -, heq⟩ | ⟨hne, heq⟩
      · rw [heq] at h
        cases h
        have hstep := WorkerSteps.release hworker
        rwa [hrelease, heq] at hstep
      · rw [heq] at h
        cases hout : (s.schedule.release id).1 with
        | released => exact absurd hout hne
        | unknown =>
            rw [hout] at h
            cases h
            exact .pass hworker hne
        | ignored state =>
            rw [hout] at h
            cases h
            exact .pass hworker hne
  | announcing id =>
      simp only [hworker] at h
      cases h
      exact .announce hworker
  | finishing =>
      simp only [hworker] at h
      cases h
      exact .finish hworker

/-- The step of a round that confirms its grant. -/
theorem step_confirm (d : Dispatcher) (task : TaskId) (handle : ExecHandle) :
    (Round.confirm task handle).step d =
      ({ d with schedule := (d.schedule.confirm task).2 },
        if (d.schedule.confirm task).1 then none else some (.undo handle)) := by
  have hconfirm : d.confirm task =
      ((d.schedule.confirm task).1, { d with schedule := (d.schedule.confirm task).2 }) := rfl
  simp only [Round.step, hconfirm]
  cases (d.schedule.confirm task).1 <;> rfl

/-- A step of a round leaves the schedule alone, or confirms a grant. -/
theorem schedule_step (d : Dispatcher) (r : Round) :
    (r.step d).1.schedule = d.schedule ∨
      ∃ id, (r.step d).1.schedule = (d.schedule.confirm id).2 := by
  cases r with
  | demote preempted task handle => exact Or.inl rfl
  | elevate task handle => exact Or.inl rfl
  | confirm task handle => exact Or.inr ⟨task, by rw [step_confirm]⟩
  | undo handle => exact Or.inl rfl

/-- A loop that steps has begun, and has not ended. -/
theorem LoopSteps.running {s next : Scheduler} (h : s.LoopSteps next) :
    next.joinable = s.joinable ∧ s.loop ≠ .absent ∧ s.loop ≠ .ended := by
  cases h with
  | take waiting _ => simp [waiting]
  | look woken => simp [woken]
  | evaluate cleared => simp [cleared]
  | apply applying => simp [applying]

/-- No step of the loop changes the configuration. -/
theorem LoopSteps.config {s next : Scheduler} (h : s.LoopSteps next) : next.config = s.config := by
  cases h <;> rfl

/-- No step of the worker changes the configuration. -/
theorem WorkerSteps.config {s next : Scheduler} (h : s.WorkerSteps next) :
    next.config = s.config := by
  cases h <;> rfl

/-- What a step of a thread does to registry and schedule. -/
structure Keeps (s next : Scheduler) : Prop where
  /-- The registry is left alone. -/
  registry : next.registry = s.registry
  /-- The schedule stays sound. -/
  sound : next.schedule.Sound
  /-- No parameter of a task changes. -/
  same : s.schedule.SameEntries next.schedule

theorem Keeps.of_schedule {s next : Scheduler} {q : Schedule}
    (registry : next.registry = s.registry) (schedule : next.schedule = q) (sound : q.Sound)
    (same : s.schedule.SameEntries q) : Keeps s next := by
  subst schedule
  exact ⟨registry, sound, same⟩

theorem LoopSteps.keeps {s next : Scheduler} (h : s.LoopSteps next) (hs : s.schedule.Sound) :
    Keeps s next := by
  cases h with
  | take _ _ => exact ⟨rfl, hs, fun _ => rfl⟩
  | look _ => exact ⟨rfl, hs, fun _ => rfl⟩
  | evaluate _ => exact ⟨rfl, hs.evaluate, hs.sameEntries_evaluate⟩
  | @apply r _ =>
      rcases schedule_step s.dispatcher r with heq | ⟨id, heq⟩
      · exact .of_schedule rfl heq hs fun _ => rfl
      · exact .of_schedule rfl heq (hs.confirm id) (hs.sameEntries_confirm id)

theorem WorkerSteps.keeps {s next : Scheduler} (h : s.WorkerSteps next) (hs : s.schedule.Sound) :
    Keeps s next := by
  cases h with
  | @release id _ => exact ⟨rfl, hs.release id, Schedule.sameEntries_release s.schedule id⟩
  | _ => exact ⟨rfl, hs, fun _ => rfl⟩

/-- A step of the loop touches the schedule once at most. -/
theorem LoopSteps.moves {s next : Scheduler} (h : s.LoopSteps next) :
    s.schedule.Moves next.schedule := by
  cases h with
  | evaluate _ => exact .evaluate
  | @apply r _ =>
      rcases schedule_step s.dispatcher r with heq | ⟨id, heq⟩
      · exact heq.symm.subst Schedule.Moves.stay
      · exact heq.symm.subst (Schedule.Moves.confirm id)
  | _ => exact .stay

/-- A step of the worker touches the schedule once at most. -/
theorem WorkerSteps.moves {s next : Scheduler} (h : s.WorkerSteps next) :
    s.schedule.Moves next.schedule := by
  cases h with
  | @release id _ => exact .release id
  | _ => exact .stay

end Scheduler

end RateMonotonic
