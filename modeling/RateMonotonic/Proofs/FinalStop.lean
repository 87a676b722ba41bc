/-
**The end of all scheduling.**

A stop ends all scheduling in one section, and winds up after it: it wakes the loop and waits for
its end, shuts the timers down and waits for the worker, and resets whoever held the slot.  Others
go on meanwhile, and later.  None of them undoes what the stop has come to: a loop that is not about
to evaluate the schedule never is again, timers that have been shut down stay without a timer, and a
worker without a timer stays idle.

Main definitions:
* `Scheduler.Stopped`, `Timers.Shut`, `LoopState.busy` — what a stop brings about;
* `Scheduler.Subsides` — whatever has come to rest stays at rest;
* `Activity.Winding` — what remains of a stop, and what it has seen to so far;
* `System.Halts` — the section that ends all scheduling;
* `System.AtRest`, `WaitingRoom.Terminal` — what can be relied on ever after.

Main results:
* `System.Kept.subsides_act` — **no action revives what has come to rest**;
* `Activity.Winding.step` — every section of the stop sees to one thing more;
* `WaitingRoom.terminal_of_halts` — **a stop is terminal**.
-/

import RateMonotonic.Proofs.RaisedPriority
import RateMonotonic.Proofs.ReleaseTimers
import RateMonotonic.Proofs.TimerAgenda
import RateMonotonic.Proofs.WaitingRoom

set_option relaxedAutoImplicit false
set_option autoImplicit false

namespace RateMonotonic

/-! ### What comes to rest -/

namespace Timers

variable {κ : Type} [DecidableEq κ] {t : Timers κ}

/-- The timers have been shut down, and none is pending. -/
structure Shut (t : Timers κ) : Prop where
  closed : t.closed = true
  unarmed : ∀ key, t.deadline? key = none

theorem shut_shutdown (t : Timers κ) : t.shutdown.Shut := ⟨rfl, fun _ => rfl⟩

theorem Shut.arm (h : t.Shut) (key : κ) (d : Instant) : (t.arm key d).Shut := by
  rwa [arm_of_shutdown h.closed]

theorem Shut.cancel (h : t.Shut) (key : κ) : (t.cancel key).Shut := by
  refine ⟨h.closed, fun other => ?_⟩
  rw [deadline?_cancel]
  split
  · rfl
  · exact h.unarmed other

end Timers

/-- Whether the loop is about to evaluate the schedule, or carries out what it has decided. -/
def LoopState.busy : LoopState → Bool
  | .cleared => true
  | .applying _ => true
  | _ => false

theorem LoopState.inRound_of_busy {l : LoopState} (h : l.busy = false) : l.inRound = false := by
  cases l <;> first | rfl | cases h

namespace Scheduler

variable {s next : Scheduler}

/-- All scheduling has been ended. -/
structure Stopped (s : Scheduler) : Prop where
  requested : s.stopRequested = true
  stopped : s.schedule.stopped = true

/-- Whatever has come to rest stays at rest. -/
structure Subsides (s next : Scheduler) : Prop where
  stopped : next.Stopped
  loop : s.loop.busy = false → next.loop.busy = false
  timers : s.timers.Shut → next.timers.Shut
  worker : s.timers.Shut → s.worker = .idle → next.worker = .idle

theorem Stopped.subsides_refl (hs : s.Stopped) : s.Subsides s :=
  ⟨hs, fun h => h, fun h => h, fun _ h => h⟩

theorem Subsides.trans {last : Scheduler} (h : s.Subsides next) (hnext : next.Subsides last) :
    s.Subsides last where
  stopped := hnext.stopped
  loop := fun hidle => hnext.loop (h.loop hidle)
  timers := fun hshut => hnext.timers (h.timers hshut)
  worker := fun hshut hidle => hnext.worker (h.timers hshut) (h.worker hshut hidle)

end Scheduler

/-- The sections of a call leave timers that have been shut down without a timer. -/
theorem Activity.Advances.shut {s next : Scheduler} {a rest : Activity}
    (h : a.Advances s next rest) (hshut : s.timers.Shut) : next.timers.Shut := by
  cases h with
  | armFirst => exact hshut.arm _ _
  | cancel => exact hshut.cancel _
  | @armNext id y _ armed =>
      subst armed
      cases hd : y.armAt with
      | none => exact hshut
      | some d => exact hshut.arm id d
  | shutTimers => exact Timers.shut_shutdown s.timers
  | _ => exact hshut

/-- No section of a call lets scheduling begin again. -/
theorem Activity.Advances.stopped {s next : Scheduler} {a rest : Activity}
    (h : a.Advances s next rest) (hs : s.Stopped) : next.Stopped := by
  refine ⟨h.stopRequested hs.requested, ?_⟩
  cases h with
  | release => exact (Schedule.stopped_release s.schedule _).trans hs.stopped
  | endJob ok => exact (Schedule.yields_of_endJob ok).stopped.trans hs.stopped
  | halt => rfl
  | _ => exact hs.stopped

/-- A section of a call revives nothing: it starts a loop that waits, at most. -/
theorem Activity.Advances.subsides {s next : Scheduler} {a rest : Activity}
    (h : a.Advances s next rest) (hs : s.Stopped) : s.Subsides next where
  stopped := h.stopped hs
  loop := by
    intro hidle
    rcases h.loop with ⟨hloop, -⟩ | ⟨-, -, hloop⟩
    · rwa [hloop]
    · rw [hloop]
      rfl
  timers := h.shut
  worker := fun _ hidle => h.worker.1.trans hidle

/-- A step of the loop revives nothing: whatever wakes it, it ends. -/
theorem Scheduler.LoopSteps.subsides {s next : Scheduler} (h : s.LoopSteps next)
    (hsound : s.schedule.Sound) (hs : s.Stopped) : s.Subsides next := by
  obtain ⟨hrequested, hstopped⟩ := h.stopped hsound
  have hend : next.Stopped := ⟨hrequested.trans hs.requested, hstopped.trans hs.stopped⟩
  cases h with
  | @take wake _ _ _ =>
      refine ⟨hend, fun _ => ?_, fun h => h, fun _ h => h⟩
      by_cases hwake : wake = .stopped <;> simp [hwake, LoopState.busy]
  | look _ =>
      refine ⟨hend, fun _ => ?_, fun h => h, fun _ h => h⟩
      simp [hs.requested, LoopState.busy]
  | evaluate cleared =>
      refine ⟨hend, fun hidle => ?_, fun h => h, fun _ h => h⟩
      rw [cleared] at hidle
      cases hidle
  | apply applying =>
      refine ⟨hend, fun hidle => ?_, fun h => h, fun _ h => h⟩
      rw [applying] at hidle
      cases hidle

/-- A step of the worker revives nothing: it finds no timer to take. -/
theorem Scheduler.WorkerSteps.subsides {s next : Scheduler} (h : s.WorkerSteps next)
    (hs : s.Stopped) : s.Subsides next := by
  obtain ⟨hrequested, hstopped⟩ := h.stopped
  have hend : next.Stopped := ⟨hrequested.trans hs.requested, hstopped.trans hs.stopped⟩
  have hbusy : ∀ {state : WorkerState}, s.worker = state → state ≠ .idle → s.worker ≠ .idle :=
    fun hstate hne => hstate ▸ hne
  cases h with
  | take _ polled =>
      obtain ⟨hopen, -⟩ := Timers.poll_eq_some polled
      have hnever : ¬ s.timers.Shut := fun hshut => by
        rw [hshut.closed] at hopen
        cases hopen
      exact ⟨hend, fun h => h, fun hshut => absurd hshut hnever, fun hshut => absurd hshut hnever⟩
  | release releasing =>
      exact ⟨hend, fun h => h, fun h => h, fun _ hidle => absurd hidle (hbusy releasing (by simp))⟩
  | pass releasing _ =>
      exact ⟨hend, fun h => h, fun h => h, fun _ hidle => absurd hidle (hbusy releasing (by simp))⟩
  | announce announcing =>
      exact ⟨hend, fun h => h, fun h => h, fun _ hidle => absurd hidle (hbusy announcing (by simp))⟩
  | finish _ => exact ⟨hend, fun h => h, fun hshut => ⟨hshut.closed, hshut.unarmed⟩, fun _ _ => rfl⟩

namespace System

variable {y : System}

/-- **No action revives what has come to rest.** -/
theorem Kept.subsides_act (hy : y.Kept) (hs : y.scheduler.Stopped) (m : Action) :
    y.scheduler.Subsides (y.act m).scheduler := by
  have hacts := acts_act hy.proper m
  generalize y.act m = next at hacts
  cases hacts with
  | stutter _ => exact hs.subsides_refl
  | invoke _ => exact hs.subsides_refl
  | advance _ ha => exact ha.subsides hs
  | loop hloop => exact hloop.subsides hy.sound hs
  | worker hworker => exact hworker.subsides hs

theorem Kept.subsides_after (hy : y.Kept) (hs : y.scheduler.Stopped) (run : List Action) :
    y.scheduler.Subsides (y.after run).scheduler :=
  hy.invariant (P := fun z => y.scheduler.Subsides z.scheduler) hs.subsides_refl run
    fun m _ _ hz hsub => hsub.trans (hz.subsides_act hsub.stopped m)

/-- A loop that has been woken stays so until it steps. -/
theorem OneRound.woken_after (hr : y.OneRound) (hy : y.Kept) (hwoken : y.scheduler.loop = .woken)
    {run : List Action} (hrun : .loop ∉ run) : (y.after run).scheduler.loop = .woken := by
  have hboth := hy.invariant (P := fun z => z.OneRound ∧ z.scheduler.loop = .woken) ⟨hr, hwoken⟩ run
    fun m hm z hz ⟨hr, hwoken⟩ => by
      refine ⟨hr.act hz m, ?_⟩
      have hacts := acts_act hz.proper m
      generalize z.act m = next at hacts
      cases hacts with
      | stutter _ => exact hwoken
      | invoke _ => exact hwoken
      | advance _ ha =>
          rcases hr.loop_of_advances ha with hloop | hl | hl
          · exact hloop.trans hwoken
          · rw [hl] at hwoken
            cases hwoken
          · rw [hl] at hwoken
            cases hwoken
      | loop _ => exact absurd hm hrun
      | worker hworker => cases hworker <;> exact hwoken
  exact hboth.2

end System

/-! ### Winding up -/

namespace Activity

/-- What remains of a stop after the section that ends all scheduling, and what it has seen to so
far. -/
inductive Winding (s : Scheduler) : Activity → Prop where
  | post (holder : Option ExecHandle) :
      Winding s (.post .stopped (.join (.shutTimers (.awaitWorker (after .reset holder finished)))))
  | join (holder : Option ExecHandle) :
      Winding s (.join (.shutTimers (.awaitWorker (after .reset holder finished))))
  | shutTimers (holder : Option ExecHandle) (loop : s.loop.busy = false) :
      Winding s (.shutTimers (.awaitWorker (after .reset holder finished)))
  | awaitWorker (holder : Option ExecHandle) (loop : s.loop.busy = false) (shut : s.timers.Shut) :
      Winding s (.awaitWorker (after .reset holder finished))
  | last (holder : Option ExecHandle) (loop : s.loop.busy = false) (shut : s.timers.Shut)
      (worker : s.worker = .idle) : Winding s (after .reset holder finished)

variable {s next : Scheduler} {a rest : Activity}

/-- What others do undoes nothing that a stop has seen to. -/
theorem Winding.subsides (h : Winding s a) (hsub : s.Subsides next) : Winding next a := by
  cases h with
  | post holder => exact .post holder
  | join holder => exact .join holder
  | shutTimers holder loop => exact .shutTimers holder (hsub.loop loop)
  | awaitWorker holder loop shut => exact .awaitWorker holder (hsub.loop loop) (hsub.timers shut)
  | last holder loop shut worker =>
      exact .last holder (hsub.loop loop) (hsub.timers shut) (hsub.worker shut worker)

/-- **Every section of a stop sees to one thing more.** -/
theorem Winding.step (h : Winding s a)
    (hjoined : s.joinable = false → s.loop = .absent ∨ s.loop = .ended) {resolver : Resolver}
    {now : Instant} (hstep : a.step s resolver now = some (next, rest)) : Winding next rest := by
  cases h with
  | post holder =>
      cases hstep
      exact .join holder
  | join holder =>
      simp only [Activity.step] at hstep
      split at hstep
      · next hj =>
          cases hstep
          refine .shutTimers holder ?_
          rcases hjoined (by simpa using hj) with hl | hl <;> rw [hl] <;> rfl
      · split at hstep <;> cases hstep
        next hended =>
          refine .shutTimers holder ?_
          show s.loop.busy = false
          rw [hended]
          rfl
  | shutTimers holder loop =>
      cases hstep
      exact .awaitWorker holder loop (Timers.shut_shutdown s.timers)
  | awaitWorker holder loop shut =>
      simp only [Activity.step] at hstep
      split at hstep <;> cases hstep
      next hidle => exact .last holder loop shut hidle
  | last holder loop shut worker =>
      cases holder with
      | none => cases hstep
      | some handle =>
          cases hstep
          exact .last none loop shut worker

/-- A stop that has been answered has seen to everything. -/
theorem Winding.of_isAnswered (h : Winding s a) (ha : a.isAnswered = true) :
    s.loop.busy = false ∧ s.timers.Shut ∧ s.worker = .idle := by
  cases h with
  | last _ loop shut worker => exact ⟨loop, shut, worker⟩
  | _ => cases ha

end Activity

namespace System

variable {y : System} {m : Action} {i : ℕ}

/-- A stop takes the section that ends all scheduling. -/
structure Halts (y : System) (m : Action) (i : ℕ) : Prop where
  advances : ∃ resolver now, m = .advance i resolver now
  call : y.calls[i]? = some .halt

/-- All scheduling has been ended, and a stop winds up. -/
structure WindingUp (y : System) (i : ℕ) : Prop where
  stopped : y.scheduler.Stopped
  winding : ∃ a, y.calls[i]? = some a ∧ a.Winding y.scheduler

theorem WindingUp.act (h : y.WindingUp i) (hy : y.Kept) (hr : y.OneRound) (m : Action) :
    (y.act m).WindingUp i := by
  have hsub := hy.subsides_act h.stopped m
  refine ⟨hsub.stopped, ?_⟩
  obtain ⟨a, hi, hwinding⟩ := h.winding
  rcases getElem?_act y m i with ⟨hsame, -⟩ | ⟨c, -, hnone, -⟩ |
    ⟨resolver, now, a', next, rest, -, hi', hstep, heq⟩
  · exact ⟨a, hsame.trans hi, hwinding.subsides hsub⟩
  · rw [hnone] at hi
    cases hi
  · rw [hi'] at hi
    cases hi
    obtain ⟨hlt, -⟩ := List.getElem?_eq_some_iff.1 hi'
    rw [heq]
    exact ⟨rest, List.getElem?_set_self hlt, hwinding.step hr.joined hstep⟩

theorem WindingUp.after (h : y.WindingUp i) (hy : y.Kept) (hr : y.OneRound) (run : List Action) :
    (y.after run).WindingUp i := by
  have hboth := hy.invariant (P := fun z => z.OneRound ∧ z.WindingUp i) ⟨hr, h⟩ run
    fun m _ _ hz ⟨hr, h⟩ => ⟨hr.act hz m, h.act hz hr m⟩
  exact hboth.2

/-- A stop begins to wind up with the section that ends all scheduling. -/
theorem Halts.windingUp (h : y.Halts m i) (hshut : y.ShutByStop) : (y.act m).WindingUp i := by
  obtain ⟨resolver, now, rfl⟩ := h.advances
  obtain ⟨hlt, -⟩ := List.getElem?_eq_some_iff.1 h.call
  have hact : y.act (.advance i resolver now) = ⟨y.scheduler.halt.2, y.calls.set i
      (.post .stopped (.join (.shutTimers (.awaitWorker
        (Activity.after .reset y.scheduler.halt.1 Activity.finished)))))⟩ := by
    simp [System.act, h.call, Activity.step]
  have hrequested : y.scheduler.stopRequested = true :=
    hshut.shuts .halt (List.mem_of_getElem? h.call) rfl
  rw [hact]
  exact ⟨⟨hrequested, rfl⟩, _, List.getElem?_set_self hlt, .post _⟩

/-- What can be relied on for good once a stop has ended all scheduling. -/
structure AtRest (y : System) (i : ℕ) : Prop where
  /-- Nobody holds the slot. -/
  vacant : y.scheduler.schedule.current = none
  /-- An evaluation of the schedule grants nothing and changes nothing. -/
  ungranted : y.scheduler.schedule.evaluate = (.idle, y.scheduler.schedule)
  /-- No grant is confirmed. -/
  unconfirmed : ∀ id, y.scheduler.schedule.confirm id = (false, y.scheduler.schedule)
  /-- Whoever asks whether a task is dispatched learns that scheduling has ended. -/
  refused : ∀ id, y.scheduler.dispatched id = .error .stopped
  /-- A loop that is not about to evaluate the schedule never is again. -/
  quiet : y.scheduler.loop.busy = false → ∀ more, (y.after more).scheduler.loop.busy = false
  /-- A loop that takes a wake has been woken by it, or has ended. -/
  takes : y.scheduler.loop = .waiting → y.scheduler.wakes.waiting ≠ [] →
    (y.act .loop).scheduler.loop = .woken ∨ (y.act .loop).scheduler.loop = .ended
  /-- A loop that has been woken ends with its next step, whatever the wake was. -/
  leaves : y.scheduler.loop = .woken →
    ∀ more, .loop ∉ more → (y.after (more ++ [.loop])).scheduler.loop = .ended
  /-- After the stop no timer is pending, none can be armed, and no callback runs or can begin. -/
  shut : ∀ x, y.calls[i]? = some (.answered x) →
    (∀ id, y.scheduler.timers.deadline? id = none) ∧
      (∀ id d, y.scheduler.timers.arm id d = y.scheduler.timers) ∧
        y.scheduler.worker = .idle ∧ ∀ now, y.scheduler.workerStep now = none
  /-- When no call is in progress any more, nobody is left raised. -/
  lowered : (∀ a ∈ y.calls, a.isAnswered = true) →
    ∀ h, y.scheduler.dispatcher.priorities.raised h = false

/-- A worker without a timer takes no step. -/
theorem workerStep_of_shut {s : Scheduler} (hshut : s.timers.Shut) (hidle : s.worker = .idle)
    (now : Instant) : s.workerStep now = none := by
  simp [Scheduler.workerStep, hidle, Timers.poll_of_closed hshut.closed]

/-- A loop that takes a wake has been woken by it, or has ended. -/
theorem loop_of_waiting (hwaiting : y.scheduler.loop = .waiting)
    (hwakes : y.scheduler.wakes.waiting ≠ []) :
    (y.act .loop).scheduler.loop = .woken ∨ (y.act .loop).scheduler.loop = .ended := by
  obtain ⟨wake, rest, htake⟩ := List.exists_cons_of_ne_nil hwakes
  by_cases hwake : wake = .stopped <;>
    simp [System.act, Scheduler.loopStep, hwaiting, Wakes.take?, htake, hwake]

/-- A loop that has been woken after the end of all scheduling ends with its next step. -/
theorem loop_of_woken (hs : y.scheduler.Stopped) (hwoken : y.scheduler.loop = .woken) :
    (y.act .loop).scheduler.loop = .ended := by
  simp [System.act, Scheduler.loopStep, hwoken, hs.requested]

/-- **Everything comes to rest after the end of all scheduling.** -/
theorem WindingUp.atRest (h : y.WindingUp i) (hy : y.Kept) (hr : y.OneRound)
    (haccounted : ∀ k, y.Accounted k) : y.AtRest i := by
  have hvacant := hy.sound.emptied h.stopped.stopped
  obtain ⟨a, hi, hwinding⟩ := h.winding
  refine ⟨hvacant, Schedule.evaluate_of_stopped h.stopped.stopped,
    Schedule.confirm_of_stopped h.stopped.stopped, fun id => ?_,
    fun hidle more => (hy.subsides_after h.stopped more).loop hidle, loop_of_waiting,
    fun hwoken more hmore => ?_,
    fun x hx => ?_, fun hover k => ?_⟩
  · simp [Scheduler.dispatched, h.stopped.stopped]
  · rw [after_append]
    exact loop_of_woken (hy.subsides_after h.stopped more).stopped (hr.woken_after hy hwoken hmore)
  · rw [hx] at hi
    cases hi
    obtain ⟨-, hshut, hidle⟩ := hwinding.of_isAnswered rfl
    exact ⟨hshut.unarmed, Timers.arm_of_shutdown hshut.closed, hidle,
      workerStep_of_shut hshut hidle⟩
  · obtain ⟨hloop, -, -⟩ := hwinding.of_isAnswered (hover a (List.mem_of_getElem? hi))
    have hquiet : y.Quiet := ⟨hover, LoopState.inRound_of_busy hloop⟩
    rw [← Bool.not_eq_true]
    intro hraised
    obtain ⟨id, t, hc, -, -⟩ := (haccounted k).heldBy hquiet hraised
    rw [hvacant] at hc
    cases hc

/-- **A system is at rest for good** from the section on that ends all scheduling. -/
theorem Halts.atRest (h : y.Halts m i) (hy : y.Kept) (hr : y.OneRound) (hshut : y.ShutByStop)
    (haccounted : ∀ k, y.Accounted k) (since : List Action) : ((y.act m).after since).AtRest i := by
  have hy' := hy.act m
  have hr' := hr.act hy m
  refine ((h.windingUp hshut).after hy' hr' since).atRest (hy'.after since)
    (hr'.after hy' since) fun k => ?_
  exact ((haccounted k).act hr hy m).after hr' hy' since

end System

/-! ### Those who wait -/

namespace WaitingRoom

variable {w : WaitingRoom} {j : ℕ} {id : TaskId}

/-- **Who has been told that his task is dispatched** was told before, or finds it so when he
looks. -/
theorem served_of_act {k : Event} (h : (w.act k).waiters[j]? = some (.served id)) :
    w.waiters[j]? = some (.served id) ∨
      ((k = .wait id ∨ k = .look j) ∧ w.system.scheduler.dispatched id = .ok true) := by
  cases hx : w.waiters[j]? with
  | some x =>
      rcases getElem?_act hx k with ⟨hsame, -⟩ | ⟨hroused, -⟩ | ⟨hlook, hlooked⟩
      · exact Or.inl (hsame.symm.trans h)
      · rw [hroused] at h
        cases x <;> first | exact Or.inl h | cases h
      · rw [hlooked] at h
        cases x with
        | woken id' =>
            obtain ⟨rfl, hdispatched⟩ := Waiter.look_eq_served.1 (Option.some.inj h)
            exact Or.inr ⟨Or.inr hlook, hdispatched⟩
        | _ => exact Or.inl h
  | none =>
      cases k with
      | wait id' =>
          -- Only he who comes is new.
          rw [List.getElem?_eq_none_iff] at hx
          rw [act, List.getElem?_append_right hx, List.getElem?_singleton] at h
          split at h
          · obtain ⟨rfl, hdispatched⟩ := Waiter.look_eq_served.1 (Option.some.inj h)
            exact Or.inr ⟨Or.inl rfl, hdispatched⟩
          · cases h
      | act m =>
          cases hm : w.system.notifies m <;> simp [act, hm, hx] at h
      | rouse i => simp [act, List.getElem?_modify, hx] at h
      | look i => simp [act, List.getElem?_modify, hx] at h

/-- After the end of all scheduling nobody is told any more that his task is dispatched. -/
theorem served_after (hw : w.system.Kept) (hs : w.system.scheduler.Stopped) {run : List Event}
    (h : (w.after run).waiters[j]? = some (.served id)) : w.waiters[j]? = some (.served id) := by
  induction run generalizing w with
  | nil => exact h
  | cons k run ih =>
      have hnext : (w.act k).system = w.system.after (actions [k]) := system_after w [k]
      have hstopped : (w.act k).system.scheduler.Stopped := by
        rw [hnext]
        exact (hw.subsides_after hs _).stopped
      rcases served_of_act (ih (hnext ▸ hw.after _) hstopped h) with hbefore | ⟨-, hdispatched⟩
      · exact hbefore
      · simp [Scheduler.dispatched, hs.stopped] at hdispatched

/-- What can be relied on in a run after the section of a stop that ends all scheduling. -/
structure Terminal (w : WaitingRoom) (before : List Event) (m : Action) (since : List Event)
    (i : ℕ) : Prop where
  /-- The system is at rest, or comes to rest. -/
  atRest : (w.after (before ++ .act m :: since)).system.AtRest i
  /-- Whoever has been told that his task is dispatched had been told before that section. -/
  served : ∀ (j : ℕ) (id : TaskId),
    (w.after (before ++ .act m :: since)).waiters[j]? = some (.served id) →
      (w.after before).waiters[j]? = some (.served id)

/-- **A stop is terminal.** -/
theorem terminal_of_halts {c : Config} {s : Scheduler} (hs : Scheduler.new c = .ok s)
    {before since : List Event} {m : Action} {i : ℕ}
    (hhalts : ((opened (System.idle s)).after before).system.Halts m i) :
    (opened (System.idle s)).Terminal before m since i := by
  obtain ⟨-, rfl⟩ := Scheduler.new_eq_ok hs
  obtain ⟨w, hw⟩ : ∃ w, (opened (System.idle (Scheduler.ofConfig c))).after before = w := ⟨_, rfl⟩
  have hsystem : w.system = (System.idle (Scheduler.ofConfig c)).after (actions before) :=
    hw ▸ system_after _ before
  have hrun : (opened (System.idle (Scheduler.ofConfig c))).after (before ++ .act m :: since) =
      (w.act (.act m)).after since := by
    rw [after_append, hw]
    rfl
  rw [hw] at hhalts
  have hkept : w.system.Kept := hsystem ▸ (System.kept_idle c).after _
  have hround : w.system.OneRound := hsystem ▸ (System.oneRound_idle c).after (System.kept_idle c) _
  have hshut : w.system.ShutByStop := hsystem ▸ System.shutByStop_after c _
  have haccounted : ∀ k, w.system.Accounted k := fun k =>
    hsystem ▸ System.Accounted.after (fun hraised => by cases hraised) (System.oneRound_idle c)
      (System.kept_idle c) _
  refine ⟨?_, fun j id hserved => ?_⟩
  · rw [hrun, system_after]
    exact hhalts.atRest hkept hround hshut haccounted _
  · rw [hrun] at hserved
    rw [hw]
    have hbefore := served_after (hkept.act m) (hhalts.windingUp hshut).stopped hserved
    refine (served_of_act hbefore).resolve_right ?_
    rintro ⟨hlook | hlook, -⟩ <;> cases hlook

/-- A scheduler in whose channel one wake fits. -/
def narrow : Config := { Config.default with wakeCapacity := 1 }

/-- The waiting room of such a scheduler that nobody has called yet. -/
def anteroom : WaitingRoom := opened (System.idle (Scheduler.ofConfig narrow))

/-- Two tasks are registered and the loop is started.  The loop grants the slot to the one and
raises its priority; the timer of the other releases it, and its wake fills the channel.  A stop is
about to end all scheduling. -/
def interrupting : List Event :=
  acts (.invoke (.register ⟨⟨1⟩, Duration.ofMillis 100, Duration.ofMillis 1⟩) ::
      System.sections 0 4 Instant.start ++
    .invoke (.register ⟨⟨2⟩, Duration.ofMillis 100, Duration.ofMillis 1⟩) ::
      System.sections 1 4 Instant.start ++
    .invoke .start :: System.sections 2 3 Instant.start ++
    List.replicate 4 (.worker alarm) ++ List.replicate 4 .loop ++
    List.replicate 4 (.worker alarm) ++
    .invoke .stop :: System.sections 3 1 Instant.start)

/-- The section of the stop. -/
def ending : Action := .advance 3 (fun id => some ⟨id.number⟩) Instant.start

/-- The loop finds the grant lost, takes the wake and ends, and the stop winds up.  Then a task is
registered, somebody waits for it, and somebody stops again. -/
def aftermath : List Event :=
  acts (System.sections 3 1 Instant.start ++ List.replicate 4 .loop ++
    System.sections 3 4 Instant.start ++
    .invoke (.register ⟨⟨3⟩, Duration.ofMillis 100, Duration.ofMillis 1⟩) ::
      System.sections 4 4 Instant.start ++
    .invoke .stop :: System.sections 5 1 Instant.start) ++ [.wait ⟨3⟩]

/-- The stop ends all scheduling while a grant is to be confirmed and no wake fits the channel. -/
theorem terminal_of_ending :
    (anteroom.after interrupting).system.scheduler.loop = .applying (.confirm ⟨1⟩ ⟨1⟩) ∧
      (anteroom.after interrupting).system.scheduler.wakes = ⟨[.released ⟨2⟩], 1⟩ ∧
      (anteroom.after interrupting).system.Halts ending 3 ∧
      anteroom.Terminal interrupting ending aftermath 3 ∧
      (∀ a ∈ (anteroom.after (interrupting ++ .act ending :: aftermath)).system.calls,
        a.isAnswered = true) ∧
      (anteroom.after (interrupting ++ .act ending :: aftermath)).system.scheduler.loop = .ended ∧
      (anteroom.after (interrupting ++ .act ending :: aftermath)).waiters =
        [.refused ⟨3⟩ .stopped] := by
  have hhalts : (anteroom.after interrupting).system.Halts ending 3 := ⟨⟨_, _, rfl⟩, rfl⟩
  exact ⟨by decide, by decide, hhalts, terminal_of_halts (c := narrow) rfl hhalts, by decide,
    by decide, by decide⟩

end WaitingRoom

end RateMonotonic
