/-
**Who is left with a raised priority.**

A grant is decided first, then its task is elevated, and only then the grant is confirmed.  In
between the task may lose the slot again, to a yield, a deregistration or the end of scheduling.
Each way of losing it comes with a reset of its own: the call that took the slot owes one, the round
that preempts makes one, and the round whose grant was lost undoes the elevation.  So whenever a
handle is raised, its task holds the slot or a reset of it is still to come.  And a task whose grant
has been confirmed was elevated after the evaluation that gave it the slot.

Main definitions:
* `Schedule.HeldBy` — the slot's holder has this handle;
* `Round.owes`, `System.Accounted` — a raised handle is the holder's, or is still to be reset;
* `System.Stopping` — a stop that has been requested ends scheduling;
* `System.Tenure`, `System.ElevatedIn` — a task has held the slot since a step of the run, and has
  been elevated since;
* `System.Seated` — whoever holds the slot after a run has such a tenure;
* `System.PrioritySafe` — what a client can rely on.

Main results:
* `System.Accounted.act` — **no action leaves a handle raised** without a reset to come;
* `System.goesOn_or_seats` — the slot goes to a task by a grant only;
* `System.Seated.snoc` — every action extends the tenure of the holder, or begins a new one;
* `System.prioritySafe_after` — **nobody but the slot's holder is left raised, and nobody goes on
  before it has been raised**.
-/

import RateMonotonic.Proofs.HolderPriority

set_option relaxedAutoImplicit false
set_option autoImplicit false

namespace RateMonotonic

/-! ### The holder's handle -/

namespace Schedule

variable {s next : Schedule}

/-- The slot's holder has this handle. -/
def HeldBy (s : Schedule) (h : ExecHandle) : Prop :=
  ∃ id t, s.current = some id ∧ s.task? id = some t ∧ t.handle = h

theorem HeldBy.of_sameEntries {h : ExecHandle} (hheld : s.HeldBy h)
    (hc : next.current = s.current) (hsame : s.SameEntries next) : next.HeldBy h := by
  obtain ⟨id, t, hid, ht, rfl⟩ := hheld
  have hmap := hsame id
  rw [ht] at hmap
  obtain ⟨u, hu, hentry⟩ := Option.map_eq_some_iff.1 hmap
  exact ⟨id, u, hc.trans hid, hu, congrArg RegistryEntry.handle hentry⟩

theorem current_release (s : Schedule) (id : TaskId) : (s.release id).2.current = s.current := by
  rcases release_cases s id with ⟨t, -, -, heq⟩ | ⟨-, heq⟩ <;> rw [heq]

/-- A holder who ends his job frees the slot and is to be reset; anybody else leaves him alone. -/
theorem Yields.holds_or_freed {id holder : TaskId} {now : Instant} {y : YieldResult} {t : Task}
    (h : s.Yields id now y next) (hc : s.current = some holder) (ht : s.task? holder = some t) :
    (next.current = some holder ∧ next.task? holder = some t) ∨
      (y.freedSlot = true ∧ y.handle = t.handle) := by
  by_cases hid : id = holder
  · subst hid
    have hfreed : s.holdsSlot id = true := decide_eq_true hc
    cases h with
    | nothing _ _ => exact Or.inl ⟨hc, ht⟩
    | sleep task _ _ =>
        rw [ht] at task
        cases task
        exact Or.inr ⟨hfreed, rfl⟩
    | requeue task _ _ =>
        rw [ht] at task
        cases task
        exact Or.inr ⟨hfreed, rfl⟩
  · have hslot : s.slotWithout id = some holder :=
      slotWithout_eq_some_iff.2 ⟨hc, fun heq => hid heq.symm⟩
    cases h with
    | nothing _ _ => exact Or.inl ⟨hc, ht⟩
    | sleep _ _ _ =>
        exact Or.inl ⟨hslot, (task?_insert s id holder _ _ _).trans ((if_neg hid).trans ht)⟩
    | requeue _ _ _ =>
        exact Or.inl ⟨hslot, (task?_insert s id holder _ _ _).trans ((if_neg hid).trans ht)⟩

end Schedule

/-- A call that takes the slot from its holder owes him a reset. -/
theorem Activity.Advances.heldBy_or_owes {s next : Scheduler} {a rest : Activity}
    (h : a.Advances s next rest) (hs : s.schedule.Sound) (hfits : a.holds = true → a.Fits s)
    {k : ExecHandle} (hheld : s.schedule.HeldBy k) :
    next.schedule.HeldBy k ∨ rest.owes next.registry k = true := by
  obtain ⟨id, t, hc, ht, hk⟩ := id hheld
  cases h with
  | @release j =>
      exact Or.inl (hheld.of_sameEntries (Schedule.current_release s.schedule j)
        (Schedule.sameEntries_release s.schedule j))
  | @enroll e first new =>
      have hholder := hs.holderKept_put (t := e.asleep first) ((hfits rfl).agrees.task?_eq_none new)
      exact Or.inl ⟨id, t, hc, (hholder id hc).2.trans ht, hk⟩
  | @withdraw j =>
      by_cases hj : id = j
      · subst hj
        have hfreed : (s.withdraw id).1 = true := decide_eq_true hc
        have hfind : (s.withdraw id).2.registry.find? id = some t.entry :=
          (hfits rfl).agrees.find?_eq ht
        refine Or.inr ?_
        rw [hfreed]
        simp only [owes, hfind, Option.any_some]
        exact decide_eq_true hk
      · refine Or.inl ⟨id, t, Schedule.slotWithout_eq_some_iff.2 ⟨hc, hj⟩, ?_, hk⟩
        exact (Schedule.task?_withdraw s.schedule j id).trans ((if_neg (Ne.symm hj)).trans ht)
  | endJob ok =>
      rcases (Schedule.yields_of_endJob ok).holds_or_freed hc ht with ⟨hc', ht'⟩ | ⟨hfreed, hy⟩
      · exact Or.inl ⟨id, t, hc', ht', hk⟩
      · exact Or.inr (by simp [owes, hfreed, hy, hk])
  | halt =>
      have hholder : s.halt.1 = some t.handle :=
        congrArg (Option.map fun x : TaskId × Task => x.2.handle) (Schedule.Sound.holder?_eq hc ht)
      exact Or.inr (by simp [owes, hholder, after, hk])
  | _ => exact Or.inl hheld

/-! ### What ends scheduling -/

theorem Schedule.Yields.stopped {s next : Schedule} {id : TaskId} {now : Instant} {y : YieldResult}
    (h : s.Yields id now y next) : next.stopped = s.stopped := by
  cases h <;> rfl

theorem Schedule.Sound.stopped_confirm {s : Schedule} (h : s.Sound) (id : TaskId) :
    (s.confirm id).2.stopped = s.stopped := by
  rcases h.confirm_cases id with ⟨t, -, -, -, -, heq⟩ | ⟨-, heq⟩ <;> rw [heq]

/-- Only a call that is about to end scheduling ends it, and only one that requests it comes to. -/
theorem Activity.Advances.stopping {s next : Scheduler} {a rest : Activity}
    (h : a.Advances s next rest) :
    rest = .halt ∨ next.schedule.stopped = true ∨
      (a ≠ .halt ∧ next.stopRequested = s.stopRequested ∧
        next.schedule.stopped = s.schedule.stopped) := by
  cases h with
  | stop => exact Or.inl rfl
  | halt => exact Or.inr (Or.inl rfl)
  | release => exact Or.inr (Or.inr ⟨by simp, rfl, Schedule.stopped_release s.schedule _⟩)
  | endJob ok => exact Or.inr (Or.inr ⟨by simp, rfl, (Schedule.yields_of_endJob ok).stopped⟩)
  | _ => exact Or.inr (Or.inr ⟨by simp, rfl, rfl⟩)

theorem Scheduler.LoopSteps.stopped {s next : Scheduler} (h : s.LoopSteps next)
    (hs : s.schedule.Sound) :
    next.stopRequested = s.stopRequested ∧ next.schedule.stopped = s.schedule.stopped := by
  cases h with
  | take _ _ => exact ⟨rfl, rfl⟩
  | look _ => exact ⟨rfl, rfl⟩
  | evaluate _ => exact ⟨rfl, hs.stopped_evaluate⟩
  | @apply r _ =>
      refine ⟨rfl, ?_⟩
      rcases Scheduler.schedule_step s.dispatcher r with heq | ⟨id, heq⟩
      · exact congrArg Schedule.stopped heq
      · exact (congrArg Schedule.stopped heq).trans (hs.stopped_confirm id)

theorem Scheduler.WorkerSteps.stopped {s next : Scheduler} (h : s.WorkerSteps next) :
    next.stopRequested = s.stopRequested ∧ next.schedule.stopped = s.schedule.stopped := by
  cases h with
  | @release id _ => exact ⟨rfl, Schedule.stopped_release s.schedule id⟩
  | _ => exact ⟨rfl, rfl⟩

/-! ### Raised handles -/

/-- Whether a reset of a handle is still to come in a round, if only in case its grant is lost. -/
def Round.owes (h : ExecHandle) : Round → Bool
  | .demote preempted _ _ => decide (preempted = h)
  | .elevate _ _ => false
  | .confirm _ handle => decide (handle = h)
  | .undo handle => decide (handle = h)

/-- Whether a reset of a handle is still to come from the loop, if only in case a grant is lost. -/
def LoopState.owes (h : ExecHandle) : LoopState → Bool
  | .applying r => r.owes h
  | _ => false

/-- Whoever is granted the slot goes on only after a confirmation. -/
theorem resumed_of_evaluates {s next : Schedule} {d : Decision} (h : s.Evaluates d next) {r : Round}
    (hr : Round.ofDecision d = some r) {id : TaskId} {t : Task} (hc : next.current = some id)
    (ht : next.task? id = some t) : t.resumed = false := by
  cases h with
  | idle _ => cases hr
  | keep _ _ _ _ _ => cases hr
  | @grant head u _ _ _ _ _ _ _ _ =>
      cases hc
      rw [Schedule.task?_award_self] at ht
      cases ht
      exact Task.resumed_grant u
  | @preempt running head t' u _ _ _ _ _ _ _ _ _ _ _ =>
      cases hc
      rw [Schedule.task?_displace_head] at ht
      cases ht
      exact Task.resumed_grant u

/-- A task that has been dispatched is running with its priority raised, before the end of all
scheduling. -/
theorem Scheduler.dispatched_eq_ok_true {s : Scheduler} {id : TaskId}
    (h : s.dispatched id = .ok true) : ∃ t, s.schedule.stopped = false ∧
      s.schedule.task? id = some t ∧ t.state = .running ∧ t.resumed = true := by
  unfold dispatched at h
  split at h
  · cases h
  · next hlive =>
      split at h
      · cases h
      · next t ht =>
          have hboth : (decide (t.state = .running) && t.resumed) = true := Except.ok.inj h
          obtain ⟨hrun, hresumed⟩ := Bool.and_eq_true_iff.1 hboth
          exact ⟨t, by simpa using hlive, ht, of_decide_eq_true hrun, hresumed⟩

/-- Evaluating the schedule takes nobody off the slot without a round that resets his handle. -/
theorem heldBy_or_owes_of_evaluates {s next : Schedule} {d : Decision} (h : s.Evaluates d next)
    {k : ExecHandle} (hheld : s.HeldBy k) :
    next.HeldBy k ∨ (Scheduler.loopAfter (Round.ofDecision d)).owes k = true := by
  obtain ⟨id, t, hc, ht, hk⟩ := id hheld
  cases h with
  | idle _ => exact Or.inl hheld
  | keep _ _ _ _ _ => exact Or.inl hheld
  | grant _ _ current _ _ _ =>
      rw [current] at hc
      cases hc
  | preempt _ _ current task _ _ _ _ _ =>
      rw [current] at hc
      cases hc
      rw [ht] at task
      cases task
      exact Or.inr (decide_eq_true hk)

namespace System

/-- A handle that is raised is the holder's, or is still to be reset. -/
def Accounted (h : ExecHandle) (y : System) : Prop :=
  y.scheduler.dispatcher.priorities.raised h = true →
    y.scheduler.schedule.HeldBy h ∨ y.owed h = true ∨ y.scheduler.loop.owes h = true

theorem Accounted.advance {y : System} {h : ExecHandle} (ht : y.Accounted h) (hr : y.OneRound)
    (hy : y.Kept) {l r : List Activity} {a rest : Activity} {next : Scheduler}
    (hcalls : y.calls = l ++ a :: r) (ha : a.Advances y.scheduler next rest) :
    Accounted h ⟨next, l ++ rest :: r⟩ := by
  intro hraised
  have hmem : a ∈ y.calls := by simp [hcalls]
  have hbefore : y.scheduler.dispatcher.priorities.raised h = true := by
    rcases ha.raised h with heq | ⟨-, hreset⟩
    · exact heq.symm.trans hraised
    · rw [hreset] at hraised
      cases hraised
  rcases ht hbefore with hheld | howed | hround
  · rcases ha.heldBy_or_owes hy.sound (hy.fits a hmem) hheld with hheld | howes
    · exact Or.inl hheld
    · exact Or.inr (Or.inl (owed_split.2 (Or.inl howes)))
  · have howed' : owed ⟨y.scheduler, l ++ a :: r⟩ h = true := by
      rw [← hcalls]
      exact howed
    rcases owed_split.1 howed' with hk | ⟨b, hb, hk⟩
    · rcases ha.owes_or_reset (hy.fits a hmem) hk with hk | hreset
      · exact Or.inr (Or.inl (owed_split.2 (Or.inl hk)))
      · rw [hreset] at hraised
        cases hraised
    · rw [← hy.owes_of_other hcalls ha hb h] at hk
      exact Or.inr (Or.inl (owed_split.2 (Or.inr ⟨b, hb, hk⟩)))
  · -- A loop that is started anew was in no round.
    rcases hr.loop_of_advances ha with hloop | hl | hl
    · exact Or.inr (Or.inr (hloop.symm ▸ hround))
    · rw [hl] at hround
      cases hround
    · rw [hl] at hround
      cases hround

/-- Where the loop owes nothing, a raised handle is the holder's, or a call is to reset it. -/
theorem Accounted.heldBy_or_owed {y : System} {h : ExecHandle} (ht : y.Accounted h)
    (hraised : y.scheduler.dispatcher.priorities.raised h = true)
    (hloop : y.scheduler.loop.owes h = false) :
    y.scheduler.schedule.HeldBy h ∨ y.owed h = true := by
  rcases ht hraised with hheld | howed | hround
  · exact Or.inl hheld
  · exact Or.inr howed
  · rw [hloop] at hround
    cases hround

/-- A grant is confirmed, or undone next. -/
theorem Accounted.confirm {y : System} {h : ExecHandle} (ht : y.Accounted h) (hr : y.OneRound)
    (hy : y.Kept) {task : TaskId} {handle : ExecHandle}
    (applying : y.scheduler.loop = .applying (.confirm task handle))
    (hraised : y.scheduler.dispatcher.priorities.raised h = true) :
    (y.scheduler.schedule.confirm task).2.HeldBy h ∨ y.owed h = true ∨
      (Scheduler.loopAfter (if (y.scheduler.schedule.confirm task).1 then none
        else some (.undo handle))).owes h = true := by
  have hkept : y.scheduler.schedule.HeldBy h → (y.scheduler.schedule.confirm task).2.HeldBy h :=
    fun hheld => hheld.of_sameEntries (hy.sound.current_confirm task)
      (hy.sound.sameEntries_confirm task)
  rcases ht hraised with hheld | howed | hround
  · exact Or.inl (hkept hheld)
  · exact Or.inr (Or.inl howed)
  · rw [applying] at hround
    have hhandle : handle = h := of_decide_eq_true hround
    rcases hy.sound.confirm_cases task with ⟨t, hc, -, htask, -, -⟩ | ⟨-, hlost⟩
    · have hgrantee := hr.granted _ applying task t hc htask
      cases hgrantee
      exact Or.inl (hkept ⟨task, t, hc, htask, hhandle⟩)
    · rw [hlost]
      exact Or.inr (Or.inr (decide_eq_true hhandle))

theorem Accounted.loopStep {y : System} {h : ExecHandle} (ht : y.Accounted h) (hr : y.OneRound)
    (hy : y.Kept) {next : Scheduler} (hloop : y.scheduler.LoopSteps next) :
    Accounted h ⟨next, y.calls⟩ := by
  intro hraised
  have hreset : ∀ k, (y.scheduler.dispatcher.priorities.reset k).raised h = true →
      k ≠ h ∧ y.scheduler.dispatcher.priorities.raised h = true := by
    intro k hk
    rw [PriorityLog.raised_reset] at hk
    split at hk
    · cases hk
    · next hne => exact ⟨hne, hk⟩
  cases hloop with
  | take waiting _ =>
      exact (ht.heldBy_or_owed hraised (by rw [waiting]; rfl)).imp_right Or.inl
  | look woken =>
      exact (ht.heldBy_or_owed hraised (by rw [woken]; rfl)).imp_right Or.inl
  | evaluate cleared =>
      rcases ht.heldBy_or_owed hraised (by rw [cleared]; rfl) with hheld | howed
      · rcases heldBy_or_owes_of_evaluates hy.sound.evaluates hheld with hheld | howes
        · exact Or.inl hheld
        · exact Or.inr (Or.inr howes)
      · exact Or.inr (Or.inl howed)
  | @apply q applying =>
      cases q with
      | demote preempted task handle =>
          obtain ⟨hne, hbefore⟩ := hreset preempted hraised
          have hloop : y.scheduler.loop.owes h = false := by
            rw [applying]
            exact decide_eq_false hne
          exact (ht.heldBy_or_owed hbefore hloop).imp_right Or.inl
      | elevate task handle =>
          by_cases hk : handle = h
          · exact Or.inr (Or.inr (decide_eq_true hk))
          · have hsame : (y.scheduler.dispatcher.elevate handle).priorities.raised h =
                y.scheduler.dispatcher.priorities.raised h :=
              PriorityLog.raised_elevate_of_ne _ hk _ _
            have hbefore := hsame.symm.trans hraised
            exact (ht.heldBy_or_owed hbefore (by rw [applying]; rfl)).imp_right Or.inl
      | confirm task handle =>
          simp only [Scheduler.step_confirm] at hraised ⊢
          exact ht.confirm hr hy applying hraised
      | undo handle =>
          obtain ⟨hne, hbefore⟩ := hreset handle hraised
          have hloop : y.scheduler.loop.owes h = false := by
            rw [applying]
            exact decide_eq_false hne
          exact (ht.heldBy_or_owed hbefore hloop).imp_right Or.inl

theorem Accounted.workerStep {y : System} {h : ExecHandle} (ht : y.Accounted h)
    {next : Scheduler} (hworker : y.scheduler.WorkerSteps next) :
    Accounted h ⟨next, y.calls⟩ := by
  cases hworker with
  | @release j _ =>
      intro hraised
      refine (ht hraised).imp_left fun hheld => ?_
      exact hheld.of_sameEntries (Schedule.current_release y.scheduler.schedule j)
        (Schedule.sameEntries_release y.scheduler.schedule j)
  | _ => exact ht

/-- **No action leaves a handle raised** without a reset to come. -/
theorem Accounted.act {y : System} {h : ExecHandle} (ht : y.Accounted h) (hr : y.OneRound)
    (hy : y.Kept) (m : Action) : (y.act m).Accounted h := by
  have hacts := acts_act hy.proper m
  generalize y.act m = next at hacts
  cases hacts with
  | stutter _ => exact ht
  | invoke _ =>
      intro hraised
      refine (ht hraised).imp_right (Or.imp_left fun howed => ?_)
      simpa [owed, Activity.owes] using howed
  | advance hcalls ha => exact ht.advance hr hy hcalls ha
  | loop hloop => exact ht.loopStep hr hy hloop
  | worker hworker => exact ht.workerStep hworker

/-! ### The end of scheduling -/

/-- A stop that has been requested has ended scheduling, or a call is about to. -/
def Stopping (y : System) : Prop :=
  y.scheduler.stopRequested = true →
    y.scheduler.schedule.stopped = true ∨ Activity.halt ∈ y.calls

theorem Stopping.advance {y : System} (h : y.Stopping) {l r : List Activity} {a rest : Activity}
    {next : Scheduler} (hcalls : y.calls = l ++ a :: r) (ha : a.Advances y.scheduler next rest) :
    Stopping ⟨next, l ++ rest :: r⟩ := by
  intro hrequested
  rcases ha.stopping with rfl | hstopped | ⟨hne, hsame, hstopped⟩
  · exact Or.inr (by simp)
  · exact Or.inl hstopped
  · refine (h (hsame.symm.trans hrequested)).imp hstopped.trans fun hm => ?_
    rw [hcalls] at hm
    simp only [List.mem_append, List.mem_cons] at hm ⊢
    exact hm.imp_right fun hm => Or.inr (hm.resolve_left (Ne.symm hne))

theorem Stopping.act {y : System} (h : y.Stopping) (hy : y.Kept) (m : Action) :
    (y.act m).Stopping := by
  have hacts := acts_act hy.proper m
  generalize y.act m = next at hacts
  cases hacts with
  | stutter _ => exact h
  | invoke _ => exact fun hrequested => (h hrequested).imp_right (List.mem_append_left _)
  | advance hcalls ha => exact h.advance hcalls ha
  | loop hloop =>
      obtain ⟨hsame, hstopped⟩ := hloop.stopped hy.sound
      exact fun hrequested => (h (hsame.symm.trans hrequested)).imp_left hstopped.trans
  | worker hworker =>
      obtain ⟨hsame, hstopped⟩ := hworker.stopped
      exact fun hrequested => (h (hsame.symm.trans hrequested)).imp_left hstopped.trans

/-! ### Tenures -/

/-- The next step of the loop grants the slot to a task. -/
def Grants (y : System) (id : TaskId) (h : ExecHandle) : Prop :=
  y.scheduler.loop = .cleared ∧
    ∃ r, Round.ofDecision y.scheduler.schedule.evaluate.1 = some r ∧ r.grantee = some (id, h)

/-- In a run, a step of the loop grants the slot to a task, which holds it ever since. -/
structure Tenure (y : System) (id : TaskId) (h : ExecHandle) (before since : List Action) :
    Prop where
  /-- The loop's step after `before` grants the slot. -/
  granted : (y.after before).Grants id h
  /-- The task holds the slot in every state from there on. -/
  held : y.Since (fun z => z.scheduler.schedule.current = some id) before .loop since

/-- The loop has elevated a handle since a step of a run. -/
def ElevatedIn (y : System) (h : ExecHandle) (before since : List Action) : Prop :=
  ∃ more rest, since = more ++ .loop :: rest ∧
    (y.after (before ++ .loop :: more)).elevates h .loop = true

theorem ElevatedIn.snoc {y : System} {h : ExecHandle} {before since : List Action}
    (he : y.ElevatedIn h before since) (m : Action) : y.ElevatedIn h before (since ++ [m]) := by
  obtain ⟨more, rest, rfl, helevates⟩ := he
  exact ⟨more, rest ++ [m], by simp, helevates⟩

/-- Whoever holds the slot after an action held it before.  If the loop was about to elevate him, it
still is, or the action does it. -/
def GoesOn (y : System) (m : Action) (next : System) : Prop :=
  ∀ id t, next.scheduler.schedule.current = some id → next.scheduler.schedule.task? id = some t →
    ∃ u, y.scheduler.schedule.current = some id ∧ y.scheduler.schedule.task? id = some u ∧
      u.handle = t.handle ∧
        (y.scheduler.loop.raising t.handle = true → u.resumed = false →
          (next.scheduler.loop.raising t.handle = true ∧ t.resumed = false) ∨
            (m = .loop ∧ y.elevates t.handle .loop = true))

theorem goesOn_of_holderKept {y next : System} (m : Action)
    (hkept : y.scheduler.schedule.HolderKept next.scheduler.schedule)
    (hraising : ∀ h, y.scheduler.loop.raising h = true → next.scheduler.loop.raising h = true) :
    y.GoesOn m next := by
  intro id t hc ht
  obtain ⟨hc', hsame⟩ := hkept id hc
  exact ⟨t, hc', hsame.symm.trans ht, rfl, fun hr hresumed => Or.inl ⟨hraising _ hr, hresumed⟩⟩

/-- Whoever holds the slot after a step of the loop has been granted it by that step.  The loop is
about to elevate him, and has not confirmed his grant. -/
def Seats (y next : System) : Prop :=
  ∀ id t, next.scheduler.schedule.current = some id → next.scheduler.schedule.task? id = some t →
    y.Grants id t.handle ∧ next.scheduler.loop.raising t.handle = true ∧ t.resumed = false

/-- A step of the loop seats a task only by evaluating the schedule. -/
theorem goesOn_or_seats_of_loopSteps {y : System} (hr : y.OneRound) (hy : y.Kept)
    {next : Scheduler} (hloop : y.scheduler.LoopSteps next) :
    y.GoesOn .loop ⟨next, y.calls⟩ ∨ y.Seats ⟨next, y.calls⟩ := by
  cases hloop with
  | take waiting _ =>
      refine Or.inl (goesOn_of_holderKept _ (.refl _) fun _ hk => ?_)
      rw [waiting] at hk
      cases hk
  | look woken =>
      refine Or.inl (goesOn_of_holderKept _ (.refl _) fun _ hk => ?_)
      rw [woken] at hk
      cases hk
  | evaluate cleared =>
      have hevaluates := hy.sound.evaluates
      cases hround : Round.ofDecision y.scheduler.schedule.evaluate.1 with
      | none =>
          have hkept : y.scheduler.schedule.HolderKept y.scheduler.schedule.evaluate.2 := by
            rw [eq_of_evaluates hevaluates hround]
            exact .refl _
          refine Or.inl (goesOn_of_holderKept _ hkept fun _ hk => ?_)
          rw [cleared] at hk
          cases hk
      | some q =>
          refine Or.inr fun id t hc ht => ?_
          obtain ⟨hgrantee, hraising⟩ := grantee_of_evaluates hevaluates hround hc ht
          have hresumed := resumed_of_evaluates hevaluates hround hc ht
          exact ⟨⟨cleared, q, hround, hgrantee⟩, hraising, hresumed⟩
  | @apply q applying =>
      refine Or.inl ?_
      cases q with
      | demote preempted task handle =>
          refine goesOn_of_holderKept _ (.refl _) fun h hk => ?_
          rw [applying] at hk
          exact hk
      | elevate task handle =>
          intro id t hc ht
          refine ⟨t, hc, ht, rfl, fun hk _ => Or.inr ⟨rfl, ?_⟩⟩
          rw [applying] at hk
          simpa [elevates, applying, LoopState.raising] using hk
      | confirm task handle =>
          intro id t hc ht
          simp only [Scheduler.schedule, Scheduler.step_confirm] at hc ht
          obtain ⟨hc', u, hu, hentry⟩ := hy.sound.holderFrom_confirm task id t hc ht
          refine ⟨u, hc', hu, congrArg RegistryEntry.handle hentry, fun hk => ?_⟩
          rw [applying] at hk
          cases hk
      | undo handle =>
          -- Nobody holds the slot while his grant is undone.
          intro id t hc ht
          have hgrantee := hr.granted _ applying id t hc ht
          cases hgrantee

/-- **The slot goes to a task by a grant only.**  In all other actions its holder goes on. -/
theorem goesOn_or_seats {y : System} (hr : y.OneRound) (hy : y.Kept) (m : Action) :
    y.GoesOn m (y.act m) ∨ (m = .loop ∧ y.Seats (y.act m)) := by
  have hacts := acts_act hy.proper m
  generalize y.act m = next at hacts
  cases hacts with
  | stutter _ => exact Or.inl (goesOn_of_holderKept _ (.refl _) fun _ hk => hk)
  | invoke _ => exact Or.inl (goesOn_of_holderKept _ (.refl _) fun _ hk => hk)
  | @advance _ _ _ _ _ a _ next hcalls ha =>
      have hkept := ha.holderKept hy.sound (hy.fits a (by simp [hcalls]))
      refine Or.inl (goesOn_of_holderKept _ hkept fun h hk => ?_)
      rcases hr.loop_of_advances ha with hloop | hl | hl
      · exact hloop.symm ▸ hk
      · rw [hl] at hk
        cases hk
      · rw [hl] at hk
        cases hk
  | loop hloop => exact (goesOn_or_seats_of_loopSteps hr hy hloop).imp_right fun h => ⟨rfl, h⟩
  | worker hworker =>
      refine Or.inl ?_
      cases hworker with
      | @release j _ =>
          exact goesOn_of_holderKept _ (hy.sound.holderKept_release j) fun _ hk => hk
      | _ => exact goesOn_of_holderKept _ (.refl _) fun _ hk => hk

/-- Whoever holds the slot after a run was granted it in the run.  He has been elevated since, or
the loop is about to, and has not confirmed his grant. -/
def Seated (y : System) (run : List Action) : Prop :=
  ∀ id t, (y.after run).scheduler.schedule.current = some id →
    (y.after run).scheduler.schedule.task? id = some t →
      ∃ before since, run = before ++ .loop :: since ∧ y.Tenure id t.handle before since ∧
        (((y.after run).scheduler.loop.raising t.handle = true ∧ t.resumed = false) ∨
          y.ElevatedIn t.handle before since)

/-- **Every action extends the tenure of the holder, or begins a new one.** -/
theorem Seated.snoc {y : System} {run : List Action} (h : y.Seated run)
    (hr : (y.after run).OneRound) (hy : (y.after run).Kept) (m : Action) :
    y.Seated (run ++ [m]) := by
  have hnext := y.after_concat run m
  intro id t hc ht
  rw [hnext] at hc ht ⊢
  rcases goesOn_or_seats hr hy m with hgoes | ⟨rfl, hseats⟩
  · obtain ⟨u, hc', hu, hhandle, hraising⟩ := hgoes id t hc ht
    obtain ⟨before, since, rfl, htenure, hstage⟩ := h id u hc' hu
    rw [hhandle] at htenure hstage
    refine ⟨before, since ++ [m], by simp, ⟨htenure.granted, htenure.held.snoc ?_⟩, ?_⟩
    · rw [hnext]
      exact hc
    · rcases hstage with ⟨hk, hresumed⟩ | helevated
      · exact (hraising hk hresumed).imp_right fun ⟨heq, helevates⟩ =>
          ⟨since, [], by rw [heq], helevates⟩
      · exact Or.inr (helevated.snoc m)
  · obtain ⟨hgranted, hstage⟩ := hseats id t hc ht
    refine ⟨run, [], rfl, ⟨hgranted, since_nil ?_⟩, Or.inl hstage⟩
    rw [hnext]
    exact hc

/-! ### Runs -/

/-- What can be relied on after a run about who is raised. -/
structure PrioritySafe (y : System) (run : List Action) : Prop where
  /-- With no call and no round in progress, a raised handle is that of the slot's holder. -/
  raised : (y.after run).Quiet → ∀ h schedClass level,
    (y.after run).scheduler.dispatcher.priorities.latest? h = some (.elevate h schedClass level) →
      (y.after run).scheduler.schedule.HeldBy h
  /-- With no call and no round in progress, nobody is raised when nobody holds the slot, nor after
  a stop. -/
  lowered : (y.after run).Quiet →
    (y.after run).scheduler.schedule.current = none ∨ (y.after run).scheduler.stopRequested = true →
      ∀ h, (y.after run).scheduler.dispatcher.priorities.raised h = false
  /-- Whoever learns that its task has been dispatched finds it running, in the slot, and elevated
  since the slot was granted to it. -/
  dispatched : ∀ id, (y.after run).scheduler.dispatched id = .ok true →
    ∃ t, (y.after run).scheduler.schedule.task? id = some t ∧ t.state = .running ∧
      (y.after run).scheduler.schedule.current = some id ∧
        ∃ before since, run = before ++ .loop :: since ∧ y.Tenure id t.handle before since ∧
          y.ElevatedIn t.handle before since

theorem oneRound_idle (c : Config) : (idle (Scheduler.ofConfig c)).OneRound :=
  ⟨fun _ => Or.inl rfl, fun r hr => by cases hr⟩

theorem OneRound.after {y : System} (h : y.OneRound) (hy : y.Kept) (run : List Action) :
    (y.after run).OneRound :=
  hy.invariant h run fun m _ _ hz hr => hr.act hz m

theorem Accounted.after {y : System} {h : ExecHandle} (ht : y.Accounted h) (hr : y.OneRound)
    (hy : y.Kept) (run : List Action) : (y.after run).Accounted h :=
  have hboth := hy.invariant (P := fun z => z.OneRound ∧ z.Accounted h) ⟨hr, ht⟩ run
    fun m _ _ hz ⟨hr, ht⟩ => ⟨hr.act hz m, ht.act hr hz m⟩
  hboth.2

theorem Stopping.after {y : System} (h : y.Stopping) (hy : y.Kept) (run : List Action) :
    (y.after run).Stopping :=
  hy.invariant h run fun m _ _ hz hs => hs.act hz m

theorem seated_after (c : Config) (run : List Action) :
    (idle (Scheduler.ofConfig c)).Seated run := by
  refine (kept_idle c).history run (fun id t hc => by cases hc) fun before m _ hkept hseated => ?_
  exact hseated.snoc ((oneRound_idle c).after (kept_idle c) before) hkept m

/-- With no call and no round in progress, a raised handle is the holder's. -/
theorem Accounted.heldBy {y : System} {h : ExecHandle} (ht : y.Accounted h) (hquiet : y.Quiet)
    (hraised : y.scheduler.dispatcher.priorities.raised h = true) :
    y.scheduler.schedule.HeldBy h := by
  have hloop : y.scheduler.loop.owes h = false := by
    have hround := hquiet.loop
    cases hl : y.scheduler.loop with
    | applying r =>
        rw [hl] at hround
        cases hround
    | _ => rfl
  refine (ht.heldBy_or_owed hraised hloop).resolve_right fun howed => ?_
  rw [hquiet.owed h] at howed
  cases howed

/-- After a stop that no call carries out any more, nobody holds the slot. -/
theorem Stopping.current {y : System} (h : y.Stopping) (hy : y.Kept) (hquiet : y.Quiet)
    (hrequested : y.scheduler.stopRequested = true) : y.scheduler.schedule.current = none := by
  refine hy.sound.emptied ((h hrequested).resolve_right fun hm => ?_)
  have hover := hquiet.calls _ hm
  cases hover

/-- **Nobody but the slot's holder is left raised, and nobody goes on before it has been raised.** -/
theorem prioritySafe_after {c : Config} {s : Scheduler} (hs : Scheduler.new c = .ok s)
    (run : List Action) : (idle s).PrioritySafe run := by
  obtain ⟨-, rfl⟩ := Scheduler.new_eq_ok hs
  have hkept := (kept_idle c).after run
  have haccounted : ∀ h, ((idle (Scheduler.ofConfig c)).after run).Accounted h := fun h =>
    Accounted.after (fun hraised => by cases hraised) (oneRound_idle c) (kept_idle c) run
  have hstopping : ((idle (Scheduler.ofConfig c)).after run).Stopping :=
    Stopping.after (fun hrequested => by cases hrequested) (kept_idle c) run
  refine ⟨fun hquiet h schedClass level hlatest => ?_, fun hquiet hfree h => ?_, fun id hid => ?_⟩
  · exact (haccounted h).heldBy hquiet (PriorityLog.raised_iff.2 ⟨schedClass, level, hlatest⟩)
  · have hcurrent := hfree.elim (fun hc => hc) (hstopping.current hkept hquiet)
    rw [← Bool.not_eq_true]
    intro hraised
    obtain ⟨id, t, hc, -, -⟩ := (haccounted h).heldBy hquiet hraised
    rw [hcurrent] at hc
    cases hc
  · obtain ⟨t, hlive, ht, hrun, hresumed⟩ := Scheduler.dispatched_eq_ok_true hid
    have hc := hkept.sound.held hlive id t ht hrun
    obtain ⟨before, since, heq, htenure, hstage⟩ := seated_after c run id t hc ht
    refine ⟨t, ht, hrun, hc, before, since, heq, htenure, hstage.resolve_left ?_⟩
    rintro ⟨-, hnot⟩
    rw [hresumed] at hnot
    cases hnot

/-- A task that was queued again is granted the slot a second time, raised, and confirmed. -/
theorem prioritySafe_promptReset :
    let y := (idle (Scheduler.ofConfig Config.default)).after promptReset
    y.Quiet ∧ y.scheduler.dispatched ⟨1⟩ = .ok true ∧
      y.scheduler.dispatcher.priorities.latest? ⟨1⟩ = some (.elevate ⟨1⟩ .fifo 99) ∧
      (idle (Scheduler.ofConfig Config.default)).PrioritySafe promptReset :=
  ⟨⟨by decide, by decide⟩, by decide, by decide,
    prioritySafe_after (c := Config.default) rfl promptReset⟩

end System

end RateMonotonic
