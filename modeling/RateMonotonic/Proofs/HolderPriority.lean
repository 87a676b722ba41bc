/-
**The priority of the slot's holder.**

A call that takes a task off the slot resets the task's handle later, when others may run again.  By
then the dispatcher may have granted the slot to the same task once more and elevated it: the reset
lands on top of the elevation, and nobody elevates the task again while it holds the slot.  So the
holder's priority is raised, once everything has come to an end, exactly when no such reset was
still to come at its latest elevation.

Main definitions:
* `PriorityLog.latest?` — the latest request for a handle;
* `Activity.owes`, `System.owed` — whether a reset of a handle is still to come;
* `System.overtaken` — whether one was still to come at the handle's latest elevation in a run;
* `System.Quiet` — no call and no round is in progress.

Main results:
* `System.Tracked.act` — **every action keeps track** of the holder's priority;
* `System.latest_elevation_iff` — **the holder's latest request is an elevation exactly when no
  reset was still to come at its latest elevation**;
* `System.latest_reset_of_lateReset` — a run in which one was.
-/

import RateMonotonic.Proofs.SlotHolder
import RateMonotonic.Proofs.System

set_option relaxedAutoImplicit false
set_option autoImplicit false

namespace RateMonotonic

/-! ### The latest request -/

namespace PriorityLog

/-- The latest request for a handle. -/
def latest? (log : PriorityLog) (h : ExecHandle) : Option PriorityEvent :=
  log.events.reverse.find? (·.handle = h)

/-- Whether a handle's latest request is an elevation. -/
def raised (log : PriorityLog) (h : ExecHandle) : Bool :=
  match log.latest? h with
  | some (.elevate _ _ _) => true
  | _ => false

theorem latest?_record (log : PriorityLog) (e : PriorityEvent) (h : ExecHandle) :
    (log.record e).latest? h = if e.handle = h then some e else log.latest? h := by
  simp only [latest?, record, List.reverse_append, List.reverse_singleton, List.singleton_append,
    List.find?_cons]
  by_cases he : e.handle = h <;> simp [he]

theorem raised_elevate (log : PriorityLog) (h : ExecHandle) (c : SchedClass) (level : Int32) :
    (log.elevate h c level).raised h = true := by
  simp [raised, elevate, latest?_record, PriorityEvent.handle]

theorem raised_elevate_of_ne (log : PriorityLog) {k h : ExecHandle} (hne : k ≠ h) (c : SchedClass)
    (level : Int32) : (log.elevate k c level).raised h = log.raised h := by
  simp [raised, elevate, latest?_record, PriorityEvent.handle, hne]

theorem raised_reset (log : PriorityLog) (k h : ExecHandle) :
    (log.reset k).raised h = if k = h then false else log.raised h := by
  simp only [raised, reset, latest?_record, PriorityEvent.handle]
  by_cases hk : k = h <;> simp [hk]

theorem raised_iff {log : PriorityLog} {h : ExecHandle} :
    log.raised h = true ↔ ∃ c level, log.latest? h = some (.elevate h c level) := by
  constructor
  · intro hr
    unfold raised at hr
    split at hr
    · next k c level hlatest =>
        have hfound : decide ((PriorityEvent.elevate k c level).handle = h) = true :=
          List.find?_some (p := fun e : PriorityEvent => decide (e.handle = h)) hlatest
        have hk : k = h := of_decide_eq_true hfound
        exact ⟨c, level, hk ▸ hlatest⟩
    · cases hr
  · rintro ⟨c, level, hlatest⟩
    simp [raised, hlatest]

end PriorityLog

/-! ### Resets still to come -/

namespace Activity

/-- Whether a reset of a handle is still to come in a call. -/
def owes (r : Registry) (h : ExecHandle) : Activity → Bool
  | .strike id true => (r.find? id).any (·.handle = h)
  | .armNext _ y => y.freedSlot && decide (y.handle = h)
  | .reset k rest => decide (k = h) || rest.owes r h
  | .join rest => rest.owes r h
  | .shutTimers rest => rest.owes r h
  | .awaitWorker rest => rest.owes r h
  | .post _ rest => rest.owes r h
  | _ => false

/-- Whether a call is over. -/
def isAnswered : Activity → Bool
  | .answered _ => true
  | _ => false

/-- What is owed depends on the registered tasks only. -/
theorem owes_of_entries {r q : Registry} (h : q.entries = r.entries) (k : ExecHandle)
    (a : Activity) : a.owes q k = a.owes r k := by
  have hfind : ∀ id, q.find? id = r.find? id := fun id => by simp only [Registry.find?, h]
  induction a with
  | strike id freed => cases freed <;> simp [owes, hfind]
  | reset _ _ ih => simp [owes, ih]
  | join _ ih => simpa [owes] using ih
  | shutTimers _ ih => simpa [owes] using ih
  | awaitWorker _ ih => simpa [owes] using ih
  | post _ _ ih => simpa [owes] using ih
  | _ => rfl

theorem owes_of_closing {a : Activity} (ha : a.closing = true) (r q : Registry) (k : ExecHandle) :
    a.owes q k = a.owes r k := by
  induction a with
  | reset _ _ ih => simp [owes, ih ha]
  | join _ ih => simpa [owes] using ih ha
  | shutTimers _ ih => simpa [owes] using ih ha
  | awaitWorker _ ih => simpa [owes] using ih ha
  | post _ _ ih => simpa [owes] using ih ha
  | answered _ => rfl
  | _ => cases ha

/-- What is owed outside the registry does not depend on it. -/
theorem owes_of_outside {a : Activity} (ha : a.proper = true) (hout : a.holds = false)
    (r q : Registry) (k : ExecHandle) : a.owes q k = a.owes r k := by
  cases a with
  | strike id freed => cases hout
  | reset _ rest => simp [owes, owes_of_closing (a := rest) ha r q]
  | join rest => exact owes_of_closing (a := rest) ha r q k
  | shutTimers rest => exact owes_of_closing (a := rest) ha r q k
  | awaitWorker rest => exact owes_of_closing (a := rest) ha r q k
  | post _ rest => exact owes_of_closing (a := rest) ha r q k
  | _ => rfl

theorem owes_afterYield (r : Registry) (h : ExecHandle) (id : TaskId) (y : YieldResult) :
    (afterYield id y).owes r h = (y.freedSlot && decide (y.handle = h)) := by
  unfold afterYield
  cases y.freedSlot <;> cases Scheduler.endedJob y.outcome <;> simp [owes]

end Activity

/-! ### What a call does to the holder's priority -/

namespace Activity

/-- A call leaves the slot's holder alone, or takes the slot from him. -/
theorem Advances.holderKept {s next : Scheduler} {a rest : Activity} (h : Advances s a next rest)
    (hs : s.schedule.Sound) (hfits : a.holds = true → a.Fits s) :
    s.schedule.HolderKept next.schedule := by
  have hrefl := Schedule.HolderKept.refl s.schedule
  cases h with
  | release => exact hs.holderKept_release _
  | @enroll e first new =>
      have hnone := (hfits rfl).agrees.task?_eq_none new
      exact hs.holderKept_put (t := e.asleep first) hnone
  | withdraw => exact Schedule.holderKept_withdraw s.schedule _
  | endJob ok => exact (Schedule.yields_of_endJob ok).holderKept
  | halt => exact Schedule.holderKept_of_free rfl
  | _ => exact hrefl

/-- While somebody holds the slot, no call comes to owe a reset. -/
theorem Advances.owes_of_held {s next : Scheduler} {a rest : Activity} (h : Advances s a next rest)
    (ha : a.proper = true) {id : TaskId} (hc : next.schedule.current = some id) {k : ExecHandle}
    (howes : rest.owes next.registry k = true) : a.owes s.registry k = true := by
  cases h with
  | @withdraw j =>
      -- What a withdrawal owes, it owes to the task that it took off the slot.
      cases hheld : s.schedule.holdsSlot j with
      | true =>
          have hfree : (s.withdraw j).2.schedule.current = none := if_pos hheld
          rw [hfree] at hc
          cases hc
      | false =>
          have hout : (s.withdraw j).1 = false := hheld
          rw [hout] at howes
          cases howes
  | @strike j freed e x found =>
      cases freed with
      | false => cases howes
      | true => simpa [owes, found] using howes
  | endJob ok =>
      obtain ⟨hfreed, -⟩ := Bool.and_eq_true_iff.1 howes
      have hfree := (Schedule.yields_of_endJob ok).current_of_freed hfreed
      rw [show (s.withSchedule _).schedule.current = _ from hfree] at hc
      cases hc
  | armNext =>
      rw [owes_afterYield] at howes
      exact howes
  | halt => cases hc
  | unjoined => exact howes
  | @join rest _ => exact howes
  | shutTimers => exact howes
  | awaitWorker => exact howes
  | reset =>
      simp only [owes, Bool.or_eq_true]
      exact Or.inr howes
  | post => exact howes
  | _ => cases howes

/-- A reset that is owed stays so until it is made. -/
theorem Advances.owes_or_reset {s next : Scheduler} {a rest : Activity} (h : Advances s a next rest)
    (hfits : a.holds = true → a.Fits s) {k : ExecHandle} (howes : a.owes s.registry k = true) :
    rest.owes next.registry k = true ∨ next.dispatcher.priorities.raised k = false := by
  cases h with
  | missing absent =>
      rw [(hfits rfl).listed _ rfl] at absent
      cases absent
  | @strike j freed e x found =>
      cases freed with
      | false => cases howes
      | true => exact Or.inl (by simpa [owes, found] using howes)
  | armNext =>
      rw [owes_afterYield]
      exact Or.inl howes
  | unjoined => exact Or.inl howes
  | join _ => exact Or.inl howes
  | shutTimers => exact Or.inl howes
  | awaitWorker => exact Or.inl howes
  | @reset handle rest =>
      by_cases hk : handle = k
      · exact Or.inr ((PriorityLog.raised_reset _ handle k).trans (if_pos hk))
      · have hrest : (decide (handle = k) || rest.owes s.registry k) = true := howes
        rw [decide_eq_false hk, Bool.false_or] at hrest
        exact Or.inl hrest
  | post => exact Or.inl howes
  | _ => cases howes

/-- A call changes the latest request for a handle only by a reset that it owes. -/
theorem Advances.raised {s next : Scheduler} {a rest : Activity} (h : Advances s a next rest)
    (k : ExecHandle) :
    next.dispatcher.priorities.raised k = s.dispatcher.priorities.raised k ∨
      (a.owes s.registry k = true ∧ next.dispatcher.priorities.raised k = false) := by
  cases h with
  | @reset handle rest =>
      have hreset := PriorityLog.raised_reset s.dispatcher.priorities handle k
      by_cases hk : handle = k
      · exact Or.inr ⟨by simp [owes, hk], hreset.trans (if_pos hk)⟩
      · exact Or.inl (hreset.trans (if_neg hk))
  | _ => exact Or.inl rfl

/-- A call leaves the loop where it is, or starts it. -/
theorem Advances.loop {s next : Scheduler} {a rest : Activity} (h : Advances s a next rest) :
    (next.loop = s.loop ∧ (next.joinable = s.joinable ∨ s.loop = .ended)) ∨
      (s.joinable = false ∧ next.joinable = true ∧ next.loop = .waiting) := by
  cases h with
  | startLoop fresh => exact Or.inr ⟨fresh, rfl, rfl⟩
  | join ended => exact Or.inl ⟨rfl, Or.inr ended⟩
  | _ => exact Or.inl ⟨rfl, Or.inl rfl⟩

end Activity

/-! ### Rounds -/

/-- The task that a round grants the slot to, with its handle, until the grant is lost. -/
def Round.grantee : Round → Option (TaskId × ExecHandle)
  | .demote _ id h => some (id, h)
  | .elevate id h => some (id, h)
  | .confirm id h => some (id, h)
  | .undo _ => none

/-- Whether the loop carries out a decision. -/
def LoopState.inRound : LoopState → Bool
  | .applying _ => true
  | _ => false

/-- Whether the loop is about to elevate a handle. -/
def LoopState.raising (h : ExecHandle) : LoopState → Bool
  | .applying (.demote _ _ k) => decide (k = h)
  | .applying (.elevate _ k) => decide (k = h)
  | _ => false

namespace System

/-- A round grants the slot to whoever holds it, and the loop does not start twice. -/
structure OneRound (y : System) : Prop where
  /-- A loop that nobody can wait for has not begun, or has ended. -/
  joined : y.scheduler.joinable = false →
    y.scheduler.loop = .absent ∨ y.scheduler.loop = .ended
  /-- Whoever holds the slot during a round was granted it by that round. -/
  granted : ∀ r, y.scheduler.loop = .applying r → ∀ id t, y.scheduler.schedule.current = some id →
    y.scheduler.schedule.task? id = some t → r.grantee = some (id, t.handle)

theorem OneRound.advance {y : System} (h : y.OneRound) (hy : y.Kept) {l r : List Activity}
    {a rest : Activity} {next : Scheduler} (hcalls : y.calls = l ++ a :: r)
    (ha : a.Advances y.scheduler next rest) : OneRound ⟨next, l ++ rest :: r⟩ := by
  have hholder := ha.holderKept hy.sound (hy.fits a (by simp [hcalls]))
  rcases ha.loop with ⟨hloop, hjoinable⟩ | ⟨-, hjoinable, hloop⟩
  · refine ⟨fun hj => ?_, fun q hq id t hc ht => ?_⟩
    · show next.loop = .absent ∨ next.loop = .ended
      rw [hloop]
      rcases hjoinable with hsame | hended
      · exact h.joined (hsame.symm.trans hj)
      · exact Or.inr hended
    · obtain ⟨hc', hsame⟩ := hholder id hc
      exact h.granted q (hloop.symm.trans hq) id t hc' (hsame.symm.trans ht)
  · refine ⟨fun hj => ?_, fun q hq => ?_⟩
    · rw [hjoinable] at hj
      cases hj
    · rw [hloop] at hq
      cases hq

/-- A call leaves the loop where it is, unless the loop is in no round at all. -/
theorem OneRound.loop_of_advances {y : System} (h : y.OneRound) {a rest : Activity}
    {next : Scheduler} (ha : a.Advances y.scheduler next rest) :
    next.loop = y.scheduler.loop ∨ y.scheduler.loop = .absent ∨ y.scheduler.loop = .ended := by
  rcases ha.loop with ⟨hloop, -⟩ | ⟨hjoinable, -, -⟩
  · exact Or.inl hloop
  · exact Or.inr (h.joined hjoinable)

/-- What evaluating the schedule grants, if anything, goes to the holder. -/
theorem grantee_of_evaluates {s next : Schedule} {d : Decision} (h : s.Evaluates d next)
    {r : Round} (hr : Round.ofDecision d = some r) {id : TaskId} {t : Task}
    (hc : next.current = some id) (ht : next.task? id = some t) :
    r.grantee = some (id, t.handle) ∧ (LoopState.applying r).raising t.handle = true := by
  cases h with
  | idle _ => cases hr
  | keep _ _ _ _ _ => cases hr
  | @grant head u _ _ _ _ _ _ _ _ =>
      cases hr
      cases hc
      rw [Schedule.task?_award_self] at ht
      cases ht
      simp [Round.grantee, LoopState.raising]
  | @preempt running head t' u _ _ _ _ _ _ _ _ _ _ _ =>
      cases hr
      cases hc
      rw [Schedule.task?_displace_head] at ht
      cases ht
      simp [Round.grantee, LoopState.raising]

/-- An evaluation that calls for no round changes nothing. -/
theorem eq_of_evaluates {s next : Schedule} {d : Decision} (h : s.Evaluates d next)
    (hd : Round.ofDecision d = none) : next = s := by
  cases h with
  | idle _ => rfl
  | keep _ _ _ _ _ => rfl
  | grant _ _ _ _ _ _ => cases hd
  | preempt _ _ _ _ _ _ _ _ _ => cases hd

theorem OneRound.loopStep {y : System} (h : y.OneRound) (hy : y.Kept) {next : Scheduler}
    (hloop : y.scheduler.LoopSteps next) : OneRound ⟨next, y.calls⟩ := by
  obtain ⟨hjoinable, habsent, hended⟩ := hloop.running
  refine ⟨fun hj => ?_, ?_⟩
  · rcases h.joined (hjoinable.symm.trans hj) with hl | hl
    · exact absurd hl habsent
    · exact absurd hl hended
  · cases hloop with
    | @take wake _ _ _ =>
        intro r hr
        simp only at hr
        split at hr <;> cases hr
    | look _ =>
        intro r hr
        simp only at hr
        split at hr <;> cases hr
    | evaluate _ =>
        intro r hr id t hc ht
        have hevaluates := hy.sound.evaluates
        cases hround : Round.ofDecision y.scheduler.schedule.evaluate.1 with
        | none =>
            simp only [hround] at hr
            cases hr
        | some q =>
            simp only [hround] at hr
            cases hr
            exact (grantee_of_evaluates hevaluates hround hc ht).1
    | @apply q applying =>
        intro r hr id t hc ht
        cases q with
        | demote preempted task handle =>
            cases hr
            exact h.granted _ applying id t hc ht
        | elevate task handle =>
            cases hr
            exact h.granted _ applying id t hc ht
        | confirm task handle =>
            -- A grant that is not confirmed has been lost.
            have hholder := hy.sound.holderFrom_confirm task
            simp only [Scheduler.schedule, Scheduler.step_confirm] at hr hc ht
            obtain ⟨hc', u, hu, -⟩ := hholder id t hc ht
            have hgrantee := h.granted _ applying id u hc' hu
            cases hgrantee
            rcases hy.sound.confirm_cases id with ⟨_, -, -, -, -, heq⟩ | ⟨hlost, -⟩
            · have hconfirmed : (y.scheduler.dispatcher.schedule.confirm id).1 = true :=
                congrArg Prod.fst heq
              rw [hconfirmed] at hr
              cases hr
            · exact absurd hc' hlost
        | undo handle => cases hr

theorem OneRound.workerStep {y : System} (h : y.OneRound) (hy : y.Kept) {next : Scheduler}
    (hworker : y.scheduler.WorkerSteps next) : OneRound ⟨next, y.calls⟩ := by
  cases hworker with
  | @release j _ =>
      refine ⟨h.joined, fun r hr id t hc ht => ?_⟩
      obtain ⟨hc', hsame⟩ := hy.sound.holderKept_release j id hc
      exact h.granted r hr id t hc' (hsame.symm.trans ht)
  | _ => exact ⟨h.joined, h.granted⟩

theorem OneRound.act {y : System} (h : y.OneRound) (hy : y.Kept) (m : Action) :
    (y.act m).OneRound := by
  have hacts := acts_act hy.proper m
  generalize y.act m = next at hacts
  cases hacts with
  | stutter _ => exact h
  | invoke _ => exact ⟨h.joined, h.granted⟩
  | advance hcalls ha => exact h.advance hy hcalls ha
  | loop hloop => exact h.loopStep hy hloop
  | worker hworker => exact h.workerStep hy hworker

/-! ### Resets that come too late -/

/-- Whether a reset of a handle is still to come in a call. -/
def owed (y : System) (h : ExecHandle) : Bool :=
  y.calls.any fun a => a.owes y.scheduler.registry h

/-- Whether an action elevates a handle. -/
def elevates (y : System) (h : ExecHandle) : Action → Bool
  | .loop =>
      match y.scheduler.loop with
      | .applying (.elevate _ k) => decide (k = h)
      | _ => false
  | _ => false

/-- Whether a reset of a handle was still to come at its latest elevation, after one more action. -/
def late (y : System) (h : ExecHandle) (before : Bool) (m : Action) : Bool :=
  if y.elevates h m then y.owed h else before

/-- Whether a reset of a handle was still to come at its latest elevation in a run. -/
def overtakenFrom (h : ExecHandle) (y : System) (before : Bool) : List Action → Bool
  | [] => before
  | m :: run => overtakenFrom h (y.act m) (y.late h before m) run

/-- Whether a reset of a handle was still to come at its latest elevation in a run.  A handle that
was never elevated counts as not overtaken. -/
def overtaken (y : System) (h : ExecHandle) (run : List Action) : Bool :=
  overtakenFrom h y false run

/-- What can be said of the priority of a holder with this handle once it has been elevated. -/
def Tracked (h : ExecHandle) (late : Bool) (y : System) : Prop :=
  ∀ id t, y.scheduler.schedule.current = some id → y.scheduler.schedule.task? id = some t →
    t.handle = h → y.scheduler.loop.raising h = false →
      if late then y.owed h = true ∨ y.scheduler.dispatcher.priorities.raised h = false
      else y.owed h = false ∧ y.scheduler.dispatcher.priorities.raised h = true

/-- Only an action that elevates the handle changes what is known of its latest elevation. -/
theorem late_of_not_elevates {y : System} {h : ExecHandle} {m : Action}
    (hm : y.elevates h m = false) (before : Bool) : y.late h before m = before := by
  simp [late, hm]

theorem owed_split {l r : List Activity} {a : Activity} {s : Scheduler} {h : ExecHandle} :
    owed ⟨s, l ++ a :: r⟩ h = true ↔
      a.owes s.registry h = true ∨ ∃ b, (b ∈ l ∨ b ∈ r) ∧ b.owes s.registry h = true := by
  simp only [owed, List.any_append, List.any_cons, Bool.or_eq_true, List.any_eq_true]
  constructor
  · rintro (⟨b, hb, hk⟩ | hk | ⟨b, hb, hk⟩)
    · exact Or.inr ⟨b, Or.inl hb, hk⟩
    · exact Or.inl hk
    · exact Or.inr ⟨b, Or.inr hb, hk⟩
  · rintro (hk | ⟨b, hb | hb, hk⟩)
    · exact Or.inr (Or.inl hk)
    · exact Or.inl ⟨b, hb, hk⟩
    · exact Or.inr (Or.inr ⟨b, hb, hk⟩)

/-- What a call owes does not change while another takes a section. -/
theorem Kept.owes_of_other {y : System} (hy : y.Kept) {l r : List Activity} {a rest : Activity}
    {next : Scheduler} (hcalls : y.calls = l ++ a :: r) (ha : a.Advances y.scheduler next rest)
    {b : Activity} (hb : b ∈ l ∨ b ∈ r) (h : ExecHandle) :
    b.owes next.registry h = b.owes y.scheduler.registry h := by
  have hmem : b ∈ y.calls := by
    rcases hb with hb | hb <;> simp [hcalls, hb]
  cases hin : a.holds with
  | false => exact Activity.owes_of_entries (ha.outside hin).1 h b
  | true =>
      have hout := hy.outside_of_other hcalls hin hb
      exact Activity.owes_of_outside (hy.proper b hmem) hout _ _ h

theorem Tracked.advance {y : System} {h : ExecHandle} {late : Bool} (ht : y.Tracked h late)
    (hr : y.OneRound) (hy : y.Kept) {l r : List Activity} {a rest : Activity} {next : Scheduler}
    (hcalls : y.calls = l ++ a :: r) (ha : a.Advances y.scheduler next rest) :
    Tracked h late ⟨next, l ++ rest :: r⟩ := by
  intro id t hc htask hhandle hraising
  have hmem : a ∈ y.calls := by simp [hcalls]
  obtain ⟨hc', hsame⟩ := ha.holderKept hy.sound (hy.fits a hmem) id hc
  -- The loop was not about to elevate the handle before, either.
  have hraising' : y.scheduler.loop.raising h = false := by
    rcases hr.loop_of_advances ha with hloop | hl | hl
    · rw [← hloop]
      exact hraising
    · rw [hl]
      rfl
    · rw [hl]
      rfl
  have hbefore := ht id t hc' (hsame.symm.trans htask) hhandle hraising'
  have hothers : ∀ b, b ∈ l ∨ b ∈ r → b.owes next.registry h = b.owes y.scheduler.registry h :=
    fun b hb => hy.owes_of_other hcalls ha hb h
  have howed : y.owed h = true ↔
      a.owes y.scheduler.registry h = true ∨
        ∃ b, (b ∈ l ∨ b ∈ r) ∧ b.owes y.scheduler.registry h = true := by
    obtain ⟨scheduler, calls⟩ := y
    subst hcalls
    exact owed_split
  cases late with
  | false =>
      obtain ⟨hnone, hraised⟩ := hbefore
      have hown : a.owes y.scheduler.registry h = false := by
        cases hk : a.owes y.scheduler.registry h with
        | false => rfl
        | true => rw [howed.2 (Or.inl hk)] at hnone; cases hnone
      refine ⟨?_, ?_⟩
      · rw [← Bool.not_eq_true, owed_split]
        rintro (hk | ⟨b, hb, hk⟩)
        · rw [ha.owes_of_held (hy.proper a hmem) hc hk] at hown
          cases hown
        · rw [hothers b hb] at hk
          rw [howed.2 (Or.inr ⟨b, hb, hk⟩)] at hnone
          cases hnone
      · rcases ha.raised h with heq | ⟨hk, -⟩
        · exact heq.trans hraised
        · rw [hown] at hk
          cases hk
  | true =>
      rcases hbefore with hsome | hreset
      · rcases howed.1 hsome with hk | ⟨b, hb, hk⟩
        · rcases ha.owes_or_reset (hy.fits a hmem) hk with hk | hk
          · exact Or.inl (owed_split.2 (Or.inl hk))
          · exact Or.inr hk
        · rw [← hothers b hb] at hk
          exact Or.inl (owed_split.2 (Or.inr ⟨b, hb, hk⟩))
      · rcases ha.raised h with heq | ⟨-, hk⟩
        · exact Or.inr (heq.trans hreset)
        · exact Or.inr hk

theorem Tracked.loopStep {y : System} {h : ExecHandle} {late : Bool} (ht : y.Tracked h late)
    (hr : y.OneRound) (hy : y.Kept) {next : Scheduler} (hloop : y.scheduler.LoopSteps next) :
    Tracked h (y.late h late .loop) ⟨next, y.calls⟩ := by
  intro id t hc htask hhandle hraising
  cases hloop with
  | take waiting _ =>
      rw [late_of_not_elevates (by simp [elevates, waiting])]
      exact ht id t hc htask hhandle (by rw [waiting]; rfl)
  | look woken =>
      rw [late_of_not_elevates (by simp [elevates, woken])]
      exact ht id t hc htask hhandle (by rw [woken]; rfl)
  | evaluate cleared =>
      rw [late_of_not_elevates (by simp [elevates, cleared])]
      have hevaluates := hy.sound.evaluates
      cases hround : Round.ofDecision y.scheduler.schedule.evaluate.1 with
      | none =>
          have hsame := eq_of_evaluates hevaluates hround
          have hc' : y.scheduler.schedule.evaluate.2.current = some id := hc
          have htask' : y.scheduler.schedule.evaluate.2.task? id = some t := htask
          rw [hsame] at hc' htask'
          exact ht id t hc' htask' hhandle (by rw [cleared]; rfl)
      | some q =>
          have hq := (grantee_of_evaluates hevaluates hround hc htask).2
          simp only [hround, Scheduler.loopAfter] at hraising
          rw [hhandle, hraising] at hq
          cases hq
  | @apply q applying =>
      cases q with
      | demote preempted task handle =>
          have hgrantee := hr.granted _ applying id t hc htask
          cases hgrantee
          simp [Round.step, Scheduler.loopAfter, LoopState.raising, hhandle] at hraising
      | elevate task handle =>
          have hgrantee := hr.granted _ applying id t hc htask
          cases hgrantee
          subst hhandle
          have hlate : y.late t.handle late .loop = y.owed t.handle := by
            simp [System.late, elevates, applying]
          have hraised : (y.scheduler.dispatcher.elevate t.handle).priorities.raised t.handle =
              true := PriorityLog.raised_elevate _ _ _ _
          rw [hlate]
          cases howed : y.owed t.handle with
          | false => exact ⟨howed, hraised⟩
          | true => exact Or.inl howed
      | confirm task handle =>
          rw [late_of_not_elevates (by simp [elevates, applying])]
          simp only [Scheduler.schedule, Scheduler.step_confirm] at hc htask
          obtain ⟨hc', u, hu, hsame⟩ := hy.sound.holderFrom_confirm task id t hc htask
          have hbefore := ht id u hc' hu
            ((congrArg RegistryEntry.handle hsame).trans hhandle) (by rw [applying]; rfl)
          simp only [Scheduler.step_confirm]
          exact hbefore
      | undo handle =>
          have hgrantee := hr.granted _ applying id t hc htask
          cases hgrantee

theorem Tracked.workerStep {y : System} {h : ExecHandle} {late : Bool} (ht : y.Tracked h late)
    (hy : y.Kept) {next : Scheduler} (hworker : y.scheduler.WorkerSteps next) :
    Tracked h late ⟨next, y.calls⟩ := by
  cases hworker with
  | @release j _ =>
      intro id t hc htask hhandle hraising
      obtain ⟨hc', hsame⟩ := hy.sound.holderKept_release j id hc
      exact ht id t hc' (hsame.symm.trans htask) hhandle hraising
  | _ => exact ht

/-- **Every action keeps track of the holder's priority.** -/
theorem Tracked.act {y : System} {h : ExecHandle} {late : Bool} (ht : y.Tracked h late)
    (hr : y.OneRound) (hy : y.Kept) (m : Action) : (y.act m).Tracked h (y.late h late m) := by
  have hacts := acts_act hy.proper m
  generalize y.act m = next at hacts
  cases hacts with
  | stutter hidle =>
      -- A loop in a round can always step, so nobody is elevated.
      have hm : y.elevates h m = false := by
        cases m with
        | loop =>
            cases hl : y.scheduler.loop with
            | applying q => simp [Scheduler.loopStep, hl] at hidle
            | _ => simp [elevates, hl]
        | _ => rfl
      rw [late_of_not_elevates hm]
      exact ht
  | invoke _ =>
      intro id t hc htask hhandle hraising
      have hbefore := ht id t hc htask hhandle hraising
      simp only [System.late, elevates, Bool.false_eq_true, if_false, owed, List.any_append]
      simpa [owed, Activity.owes] using hbefore
  | advance hcalls ha => exact ht.advance hr hy hcalls ha
  | loop hloop => exact ht.loopStep hr hy hloop
  | worker hworker => exact ht.workerStep hy hworker

theorem Tracked.after {y : System} {h : ExecHandle} {late : Bool} (ht : y.Tracked h late)
    (hr : y.OneRound) (hy : y.Kept) (run : List Action) :
    (y.after run).Tracked h (overtakenFrom h y late run) := by
  induction run generalizing y late with
  | nil => exact ht
  | cons m run ih => exact ih (ht.act hr hy m) (hr.act hy m) (hy.act m)

/-- No call and no round is in progress. -/
structure Quiet (y : System) : Prop where
  /-- Every call has been answered. -/
  calls : ∀ a ∈ y.calls, a.isAnswered = true
  /-- The loop is not in a round. -/
  loop : y.scheduler.loop.inRound = false

/-- Nothing is owed where no call is in progress. -/
theorem Quiet.owed {y : System} (h : y.Quiet) (k : ExecHandle) : y.owed k = false := by
  rw [← Bool.not_eq_true, System.owed, List.any_eq_true]
  rintro ⟨a, ha, howes⟩
  have hover := h.calls a ha
  cases a with
  | answered x => cases howes
  | _ => cases hover

/-- **The holder's latest request is an elevation exactly when no reset was still to come at its
latest elevation.** -/
theorem latest_elevation_iff {c : Config} {s : Scheduler} (hs : Scheduler.new c = .ok s)
    (run : List Action) (hquiet : ((idle s).after run).Quiet) {id : TaskId} {t : Task}
    (hc : ((idle s).after run).scheduler.schedule.current = some id)
    (ht : ((idle s).after run).scheduler.schedule.task? id = some t) :
    (∃ schedClass level, ((idle s).after run).scheduler.dispatcher.priorities.latest? t.handle =
        some (.elevate t.handle schedClass level)) ↔
      (idle s).overtaken t.handle run = false := by
  obtain ⟨-, rfl⟩ := Scheduler.new_eq_ok hs
  have hnobody : (idle (Scheduler.ofConfig c)).Tracked t.handle false := by
    intro id t hc
    cases hc
  have hone : (idle (Scheduler.ofConfig c)).OneRound :=
    ⟨fun _ => Or.inl rfl, fun r hr => by cases hr⟩
  have htracked := hnobody.after hone (kept_idle c) run
  have hraising : ((idle (Scheduler.ofConfig c)).after run).scheduler.loop.raising t.handle =
      false := by
    have hround := hquiet.loop
    cases hl : ((idle (Scheduler.ofConfig c)).after run).scheduler.loop with
    | applying r =>
        rw [hl] at hround
        cases hround
    | _ => rfl
  have hnone := hquiet.owed t.handle
  have hholder := htracked id t hc ht rfl hraising
  rw [← PriorityLog.raised_iff, overtaken]
  cases hlate : overtakenFrom t.handle (idle (Scheduler.ofConfig c)) false run with
  | false =>
      rw [hlate] at hholder
      simpa using hholder.2
  | true =>
      rw [hlate] at hholder
      rcases hholder with hsome | hreset
      · rw [hnone] at hsome
        cases hsome
      · simp [hreset]

/-- A task is granted the slot and yields after its boundary, so that it is queued at once; its
reset is still to come. -/
def requeuing : List Action :=
  .invoke (.register ⟨⟨1⟩, Duration.ofMillis 100, Duration.ofMillis 1⟩) ::
    sections 0 4 Instant.start ++
  .invoke .start :: sections 1 3 Instant.start ++
  .invoke (.release ⟨1⟩) :: sections 2 2 Instant.start ++ List.replicate 5 .loop ++
  .invoke (.beginYield ⟨1⟩) :: sections 3 3 ⟨10 ^ 9, by decide, by decide⟩

/-- The reset is made before the loop takes its next wake. -/
def promptReset : List Action := requeuing ++ sections 3 2 Instant.start ++ List.replicate 8 .loop

/-- The reset is made after the loop has granted the slot to the same task again. -/
def lateReset : List Action :=
  requeuing ++ List.replicate 5 .loop ++ sections 3 2 Instant.start ++ List.replicate 3 .loop

theorem latest_elevation_of_promptReset :
    let y := (idle (Scheduler.ofConfig Config.default)).after promptReset
    y.Quiet ∧ y.scheduler.schedule.current = some ⟨1⟩ ∧
      ∃ t, y.scheduler.schedule.task? ⟨1⟩ = some t ∧ ∃ schedClass level,
        y.scheduler.dispatcher.priorities.latest? t.handle =
          some (.elevate t.handle schedClass level) := by
  have hquiet : ((idle (Scheduler.ofConfig Config.default)).after promptReset).Quiet :=
    ⟨by decide, by decide⟩
  obtain ⟨t, ht⟩ : ∃ t, ((idle (Scheduler.ofConfig Config.default)).after
      promptReset).scheduler.schedule.task? ⟨1⟩ = some t := Option.isSome_iff_exists.1 (by decide)
  have hhandle : (((idle (Scheduler.ofConfig Config.default)).after
      promptReset).scheduler.schedule.task? ⟨1⟩).map Task.handle = some ⟨1⟩ := by decide
  rw [ht] at hhandle
  have hone : t.handle = ⟨1⟩ := Option.some.inj hhandle
  refine ⟨hquiet, by decide, t, ht, ?_⟩
  refine (latest_elevation_iff (c := Config.default) rfl promptReset hquiet (by decide) ht).2 ?_
  rw [hone]
  decide

/-- **A late reset leaves the slot's holder without its priority.** -/
theorem latest_reset_of_lateReset :
    let y := (idle (Scheduler.ofConfig Config.default)).after lateReset
    y.Quiet ∧ y.scheduler.schedule.current = some ⟨1⟩ ∧
      (y.scheduler.registry.entries.map RegistryEntry.handle).Nodup ∧
      (y.scheduler.schedule.task? ⟨1⟩).map Task.handle = some ⟨1⟩ ∧
      y.scheduler.dispatcher.priorities.latest? ⟨1⟩ = some (.reset ⟨1⟩) ∧
      (idle (Scheduler.ofConfig Config.default)).overtaken ⟨1⟩ lateReset = true :=
  ⟨⟨by decide, by decide⟩, by decide, by decide, by decide, by decide, by decide⟩

end System

end RateMonotonic
