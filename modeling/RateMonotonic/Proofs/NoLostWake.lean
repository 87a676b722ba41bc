/-
**No wake is lost.**

Whoever changes the schedule wakes the dispatcher later, and the wake may find no room.  Still,
while the schedule is not settled there is always somebody who makes the loop look at it again: a
wake that waits, a loop that has not looked yet, or a call or a callback that has not posted its
wake yet.  So a loop that waits for a wake while none waits and none is on its way has nothing to
do.

Main definitions:
* `Activity.announces`, `WorkerState.announces` — whether a wake is on its way;
* `LoopState.offGuard` — whether the loop may come to wait without another look;
* `System.Alert` — the schedule is settled, or somebody makes the loop look at it;
* `System.Resting` — the loop waits, no wake waits, and none is on its way;
* `Schedule.AtRest` — evaluating the schedule would change nothing, and why.

Main results:
* `System.Alert.act` — **every action keeps the system alert**;
* `System.atRest_of_resting` — **where everything rests, the dispatcher has nothing to do**.
-/

import RateMonotonic.Proofs.Lineup
import RateMonotonic.Proofs.System

set_option relaxedAutoImplicit false
set_option autoImplicit false

namespace RateMonotonic

/-- Whether a call has changed the state that others see and is to wake the dispatcher for that. -/
def Activity.announces : Activity → Bool
  | .strike _ _ => true
  | .armNext _ y => Scheduler.endedJob y.outcome
  | .reset _ rest => rest.announces
  | .post _ _ => true
  | _ => false

/-- Whether the timer worker has released a task and is to wake the dispatcher for that. -/
def WorkerState.announces : WorkerState → Bool
  | .announcing _ => true
  | _ => false

/-- Whether the loop may come to wait without another look at the schedule. -/
def LoopState.offGuard : LoopState → Bool
  | .waiting => true
  | .applying _ => true
  | _ => false

/-! ### Settled schedules stay settled -/

namespace Schedule

/-- What leaves the slot, the queue and the holder's period alone keeps a schedule settled. -/
theorem Settled.of_same {s next : Schedule} (h : s.Settled) (hstopped : next.stopped = s.stopped)
    (hrow : next.ready.row = s.ready.row) (hcurrent : next.current = s.current)
    (hholder : ∀ id t, s.current = some id → s.task? id = some t →
      ∃ u, next.task? id = some u ∧ u.period = t.period) : next.Settled := by
  rcases h with hstop | hempty | ⟨id, t, hc, ht, hle⟩
  · exact Or.inl (hstopped.trans hstop)
  · exact Or.inr (Or.inl (hrow.trans hempty))
  · obtain ⟨u, hu, hperiod⟩ := hholder id t hc ht
    refine Or.inr (Or.inr ⟨id, u, hcurrent.trans hc, hu, fun x hx => ?_⟩)
    rw [hperiod]
    exact hle x (hrow ▸ hx)

theorem Settled.put {s : Schedule} (h : s.Settled) {t : Task} (hnew : s.task? t.id = none) :
    (s.put t).Settled := by
  refine h.of_same rfl rfl rfl fun id u _ hu => ⟨u, ?_, rfl⟩
  rw [task?_put, if_neg, hu]
  rintro rfl
  rw [hnew] at hu
  cases hu

theorem Settled.confirm {s : Schedule} (h : s.Settled) (hs : s.Sound) (id : TaskId) :
    (s.confirm id).2.Settled := by
  rcases hs.confirm_cases id with ⟨t, -, -, ht, -, heq⟩ | ⟨-, heq⟩
  · rw [heq]
    refine h.of_same rfl rfl rfl fun j u _ hu => ?_
    by_cases hj : id = j
    · subst hj
      rw [ht] at hu
      cases hu
      exact ⟨t.resume, (task?_insert s id id _ _ _).trans (if_pos rfl), rfl⟩
    · exact ⟨u, (task?_insert s id j _ _ _).trans ((if_neg hj).trans hu), rfl⟩
  · rw [heq]
    exact h

/-- An evaluation would change nothing, because scheduling has ended, no task is ready, or no ready
task has a shorter period than the slot's holder. -/
structure AtRest (s : Schedule) : Prop where
  /-- Nobody would be granted the slot. -/
  decision : s.evaluate.1 = .idle ∨ ∃ running head, s.evaluate.1 = .keep running head
  /-- Nothing would change. -/
  unchanged : s.evaluate.2 = s
  /-- Nobody has a claim to the slot. -/
  unclaimed : s.stopped = true ∨ (∀ id t, s.task? id = some t → t.state ≠ .ready) ∨
    ∃ id t, s.current = some id ∧ s.task? id = some t ∧
      ∀ j u, s.task? j = some u → u.state = .ready → t.period ≤ u.period

/-- A settled schedule in which every ready task is queued is at rest. -/
theorem Settled.atRest {s : Schedule} {n : ℕ} (h : s.Settled) (hs : s.Sound)
    (hc : s.Complete n) : s.AtRest := by
  obtain ⟨hdecision, hsame⟩ := hs.evaluate_of_settled h
  refine ⟨hdecision, hsame, ?_⟩
  rcases h with hstop | hempty | ⟨id, t, hcurrent, ht, hle⟩
  · exact Or.inl hstop
  · refine Or.inr (Or.inl fun id t ht hready => ?_)
    have hm := hc.ready id t ht hready
    rw [hempty] at hm
    cases hm
  · refine Or.inr (Or.inr ⟨id, t, hcurrent, ht, fun j u hu hready => ?_⟩)
    exact hle _ (hc.ready j u hu hready)

end Schedule

/-! ### Calls and wakes -/

namespace Activity

theorem announces_afterYield (id : TaskId) (y : YieldResult) :
    (afterYield id y).announces = Scheduler.endedJob y.outcome := by
  unfold afterYield
  cases y.freedSlot <;> cases Scheduler.endedJob y.outcome <;> rfl

/-- A section that unsettles the schedule is announced. -/
theorem Advances.settled {s next : Scheduler} {a rest : Activity} (h : Advances s a next rest)
    (hfits : a.holds = true → a.Fits s) (hs : s.schedule.Settled) :
    next.schedule.Settled ∨ rest.announces = true := by
  cases h with
  | release => exact Or.inr rfl
  | @enroll e first new =>
      have hnone := (hfits rfl).agrees.task?_eq_none new
      exact Or.inl (hs.put (t := e.asleep first) hnone)
  | withdraw => exact Or.inr rfl
  | endJob ok =>
      cases Schedule.yields_of_endJob ok with
      | nothing _ _ => exact Or.inl hs
      | sleep _ _ _ => exact Or.inr rfl
      | requeue _ _ _ => exact Or.inr rfl
  | halt => exact Or.inl (Or.inl rfl)
  | _ => exact Or.inl hs

/-- A wake that is on its way stays so until it is posted. -/
theorem Advances.announced {s next : Scheduler} {a rest : Activity} (h : Advances s a next rest)
    (hfits : a.holds = true → a.Fits s) (hroom : 0 < s.wakes.capacity)
    (ha : a.announces = true) : rest.announces = true ∨ next.wakes.waiting ≠ [] := by
  cases h with
  | missing absent =>
      rw [(hfits rfl).listed _ rfl] at absent
      cases absent
  | @strike _ freed _ _ _ => cases freed <;> exact Or.inl rfl
  | @armNext id y _ => exact Or.inl ((announces_afterYield id y).trans ha)
  | reset => exact Or.inl ha
  | @post wake _ => exact Or.inr (Wakes.post_ne_nil hroom wake)
  | _ => cases ha

/-- Calls take no wakes. -/
theorem Advances.wakes {s next : Scheduler} {a rest : Activity} (h : Advances s a next rest) :
    next.wakes.capacity = s.wakes.capacity ∧
      (0 < s.wakes.capacity → s.wakes.waiting ≠ [] → next.wakes.waiting ≠ []) := by
  cases h with
  | @post wake _ =>
      exact ⟨Wakes.capacity_post s.wakes wake, fun hroom _ => Wakes.post_ne_nil hroom wake⟩
  | _ => exact ⟨rfl, fun _ h => h⟩

/-- A call leaves both threads where they are, but for the one that starts the loop. -/
theorem Advances.threads {s next : Scheduler} {a rest : Activity} (h : Advances s a next rest) :
    (next.loop = s.loop ∨ rest.announces = true) ∧ next.worker = s.worker := by
  cases h with
  | startLoop _ => exact ⟨Or.inr rfl, rfl⟩
  | _ => exact ⟨Or.inl rfl, rfl⟩

end Activity

/-! ### The invariant -/

namespace System

/-- The schedule is settled, or somebody makes the loop look at it. -/
inductive Alert (y : System) : Prop where
  /-- The dispatcher has nothing to do. -/
  | settled (h : y.scheduler.schedule.Settled)
  /-- A wake waits. -/
  | wake (h : y.scheduler.wakes.waiting ≠ [])
  /-- The loop looks at the schedule before it waits. -/
  | loop (h : y.scheduler.loop.offGuard = false)
  /-- The worker is about to post a wake. -/
  | worker (h : y.scheduler.worker.announces = true)
  /-- A call is about to post a wake. -/
  | call {a : Activity} (ha : a ∈ y.calls) (h : a.announces = true)

theorem Alert.advance {y : System} (h : y.Alert) (hy : y.Kept)
    (hroom : 0 < y.scheduler.wakes.capacity) {l r : List Activity} {a rest : Activity}
    {next : Scheduler} (hcalls : y.calls = l ++ a :: r) (ha : a.Advances y.scheduler next rest) :
    Alert ⟨next, l ++ rest :: r⟩ := by
  have hmem : a ∈ y.calls := by simp [hcalls]
  have hown : rest.announces = true → Alert ⟨next, l ++ rest :: r⟩ := .call (by simp)
  obtain ⟨hloop, hworker⟩ := ha.threads
  cases h with
  | settled h =>
      rcases ha.settled (hy.fits a hmem) h with hs | hann
      · exact .settled hs
      · exact hown hann
  | wake h => exact .wake (ha.wakes.2 hroom h)
  | loop h =>
      rcases hloop with hloop | hann
      · exact .loop (by rw [hloop]; exact h)
      · exact hown hann
  | worker h => exact .worker (by rw [hworker]; exact h)
  | @call b hb h =>
      rw [hcalls, List.mem_append, List.mem_cons] at hb
      rcases hb with hb | rfl | hb
      · exact .call (by simp [hb]) h
      · rcases ha.announced (hy.fits b hmem) hroom h with hann | hw
        · exact hown hann
        · exact .wake hw
      · exact .call (by simp [hb]) h

theorem Alert.loopStep {y : System} (h : y.Alert) (hy : y.Kept) {next : Scheduler}
    (hloop : y.scheduler.LoopSteps next) : Alert ⟨next, y.calls⟩ := by
  cases hloop with
  | @take wake _ _ _ => exact .loop (by split <;> rfl)
  | look _ => exact .loop (by split <;> rfl)
  | evaluate _ => exact .settled hy.sound.settled_evaluate
  | @apply r applying =>
      cases h with
      | settled h =>
          refine .settled ?_
          rcases Scheduler.schedule_step y.scheduler.dispatcher r with heq | ⟨id, heq⟩
          · exact heq.symm.subst h
          · exact heq.symm.subst (h.confirm hy.sound id)
      | wake h => exact .wake h
      | loop h =>
          rw [applying] at h
          cases h
      | worker h => exact .worker h
      | call ha h => exact .call ha h

theorem Alert.workerStep {y : System} (h : y.Alert) (hroom : 0 < y.scheduler.wakes.capacity)
    {next : Scheduler} (hworker : y.scheduler.WorkerSteps next) : Alert ⟨next, y.calls⟩ := by
  -- A worker that does not announce anything leaves everybody else alert.
  have hothers : y.scheduler.worker.announces = false →
      next.schedule = y.scheduler.schedule → next.wakes = y.scheduler.wakes →
      next.loop = y.scheduler.loop → Alert ⟨next, y.calls⟩ := by
    intro hidle hschedule hwakes hloop
    cases h with
    | settled h => exact .settled (by rw [hschedule]; exact h)
    | wake h => exact .wake (by rw [hwakes]; exact h)
    | loop h => exact .loop (by rw [hloop]; exact h)
    | worker h =>
        rw [hidle] at h
        cases h
    | call ha h => exact .call ha h
  cases hworker with
  | take idle => exact hothers (by rw [idle]; rfl) rfl rfl rfl
  | release _ => exact .worker rfl
  | pass releasing => exact hothers (by rw [releasing]; rfl) rfl rfl rfl
  | announce _ => exact .wake (Wakes.post_ne_nil hroom _)
  | finish finishing => exact hothers (by rw [finishing]; rfl) rfl rfl rfl

/-- No action changes how many wakes can wait. -/
theorem capacity_act {y : System} (hy : y.Kept) (m : Action) :
    (y.act m).scheduler.wakes.capacity = y.scheduler.wakes.capacity := by
  have hacts := acts_act hy.proper m
  generalize y.act m = next at hacts
  cases hacts with
  | stutter _ => rfl
  | invoke _ => rfl
  | advance _ ha => exact ha.wakes.1
  | loop hloop =>
      cases hloop with
      | take _ wakes => exact Wakes.capacity_take? wakes
      | _ => rfl
  | worker hworker =>
      cases hworker with
      | announce _ => exact Wakes.capacity_post _ _
      | _ => rfl

/-- **Every action keeps the system alert.** -/
theorem Alert.act {y : System} (h : y.Alert) (hy : y.Kept)
    (hroom : 0 < y.scheduler.wakes.capacity) (m : Action) : (y.act m).Alert := by
  have hacts := acts_act hy.proper m
  generalize y.act m = next at hacts
  cases hacts with
  | stutter _ => exact h
  | invoke _ =>
      cases h with
      | settled h => exact .settled h
      | wake h => exact .wake h
      | loop h => exact .loop h
      | worker h => exact .worker h
      | call ha h => exact .call (List.mem_append_left _ ha) h
  | advance hcalls ha => exact h.advance hy hroom hcalls ha
  | loop hloop => exact h.loopStep hy hloop
  | worker hworker => exact h.workerStep hroom hworker

theorem Alert.after {y : System} (h : y.Alert) (hy : y.Kept)
    (hroom : 0 < y.scheduler.wakes.capacity) (run : List Action) : (y.after run).Alert := by
  induction run generalizing y with
  | nil => rwa [after_nil]
  | cons m run ih =>
      rw [after_cons]
      exact ih (h.act hy hroom m) (hy.act m) (by rw [capacity_act hy]; exact hroom)

/-- The loop waits, no wake waits, and none is on its way. -/
structure Resting (y : System) : Prop where
  /-- The loop has been started and waits for a wake. -/
  waiting : y.scheduler.loop = .waiting
  /-- No wake waits. -/
  unwoken : y.scheduler.wakes.waiting = []
  /-- No call is between its change and its wake. -/
  calls : ∀ a ∈ y.calls, a.announces = false
  /-- The timer worker is not between its change and its wake. -/
  worker : y.scheduler.worker.announces = false

/-- An alert system that rests is settled. -/
theorem Alert.settled_of_resting {y : System} (h : y.Alert) (hy : y.Resting) :
    y.scheduler.schedule.Settled := by
  cases h with
  | settled h => exact h
  | wake h => exact absurd hy.unwoken h
  | loop h =>
      rw [hy.waiting] at h
      cases h
  | worker h =>
      rw [hy.worker] at h
      cases h
  | call ha h =>
      rw [hy.calls _ ha] at h
      cases h

/-- **Where everything rests, the dispatcher has nothing to do.** -/
theorem atRest_of_resting {c : Config} {s : Scheduler} (hs : Scheduler.new c = .ok s)
    (run : List Action) (hrun : run.length < 2 ^ 63) (hrest : ((idle s).after run).Resting) :
    ((idle s).after run).scheduler.schedule.AtRest := by
  obtain ⟨hvalid, rfl⟩ := Scheduler.new_eq_ok hs
  have hroom : 0 < (idle (Scheduler.ofConfig c)).scheduler.wakes.capacity := by
    have hne : c.wakeCapacity.toNat ≠ 0 := fun h => hvalid.capacity (UInt64.toNat_inj.1 h)
    exact Nat.pos_of_ne_zero hne
  -- Before the start, the loop is still to look at the schedule.
  have halert : ((idle (Scheduler.ofConfig c)).after run).Alert :=
    Alert.after (.loop rfl) (kept_idle c) hroom run
  have hcomplete := (kept_idle c).complete_after (n := 0) Schedule.complete_empty run (by omega)
  exact (halert.settled_of_resting hrest).atRest ((kept_idle c).after run).sound hcomplete

/-- Two tasks are registered and released, and the loop deals with all wakes. -/
def bothReleased : List Action :=
  .invoke (.register ⟨⟨1⟩, Duration.ofMillis 100, Duration.ofMillis 1⟩) ::
    sections 0 4 Instant.start ++
  .invoke (.register ⟨⟨2⟩, Duration.ofMillis 50, Duration.ofMillis 1⟩) ::
    sections 1 4 Instant.start ++
  .invoke .start :: sections 2 3 Instant.start ++
  .invoke (.release ⟨1⟩) :: sections 3 2 Instant.start ++
  .invoke (.release ⟨2⟩) :: sections 4 2 Instant.start ++ List.replicate 11 .loop

theorem atRest_of_bothReleased :
    let y := (idle (Scheduler.ofConfig Config.default)).after bothReleased
    y.scheduler.schedule.current = some ⟨2⟩ ∧ y.scheduler.schedule.ready.ids = [⟨1⟩] ∧ y.Resting ∧
      y.scheduler.schedule.AtRest := by
  have hrest : ((idle (Scheduler.ofConfig Config.default)).after bothReleased).Resting :=
    ⟨by decide, by decide, by decide, by decide⟩
  exact ⟨by decide, by decide, hrest,
    atRest_of_resting (c := Config.default) rfl bothReleased (by decide) hrest⟩

end System

end RateMonotonic
