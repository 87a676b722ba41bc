/-
**Elevations and resets come in pairs.**

Where every operation ends before the next one begins, whoever takes the slot is elevated and whoever
leaves it is reset by the same operation.  So an operation leaves requests and holder alone, or hands
the slot over: from nobody to a task, from a task to nobody, or from one task to another.  The log is
a row of elevations, each followed by its reset, with the elevation of the slot's holder at its end.
Nothing is asked of the handles: several tasks may share one.

Operations whose sections interleave keep no such order, since a reset may come late.

Main definitions:
* `PriorityLog.brackets` — a row of elevations with their resets, and one that is still to be reset;
* `Operation`, `Scheduler.operate`, `Scheduler.operated` — a whole operation, and a run of them;
* `Dispatcher.Handover` — what an operation can do to the requests and to the slot's holder;
* `Scheduler.WellBracketed` — what a run of operations leaves behind.

Main results:
* `PriorityLog.elevated_brackets`, `PriorityLog.prefix_brackets` — no two handles are elevated at once;
* `Dispatcher.handover_dispatch` — **a round of the dispatcher leaves the holder alone or hands the
  slot over**;
* `Scheduler.Consistent.handover` — so does **every operation**;
* `Scheduler.wellBracketed_operated` — **the requests of every run are well bracketed**.
-/

import RateMonotonic.Proofs.RaisedPriority
import RateMonotonic.Proofs.Runs

set_option relaxedAutoImplicit false
set_option autoImplicit false

namespace RateMonotonic

/-! ### Brackets -/

namespace PriorityLog

variable {c : SchedClass} {level : Int32}

/-- Elevations that are reset one after the other, and then perhaps one that is not. -/
def brackets (c : SchedClass) (level : Int32) (closed : List ExecHandle)
    (last : Option ExecHandle) : List PriorityEvent :=
  closed.flatMap (fun h => [.elevate h c level, .reset h]) ++
    last.toList.map fun h => .elevate h c level

theorem brackets_cons (h : ExecHandle) (closed : List ExecHandle) (last : Option ExecHandle) :
    brackets c level (h :: closed) last =
      .elevate h c level :: .reset h :: brackets c level closed last := rfl

/-- One more elevation where none is left open. -/
theorem brackets_elevate (closed : List ExecHandle) (h : ExecHandle) :
    brackets c level closed none ++ [.elevate h c level] = brackets c level closed (some h) := by
  simp [brackets]

/-- The reset of the elevation that was left open. -/
theorem brackets_reset (closed : List ExecHandle) (h : ExecHandle) :
    brackets c level closed (some h) ++ [.reset h] = brackets c level (closed ++ [h]) none := by
  simp [brackets]

/-- After a row of brackets the last handle is elevated, and no other. -/
theorem elevated_brackets (closed : List ExecHandle) (last : Option ExecHandle) :
    (PriorityLog.mk (brackets c level closed last)).elevated = last.toList := by
  induction closed with
  | nil => cases last <;> simp [elevated, brackets, elevatedAfter]
  | cons h closed ih =>
      -- The reset takes out the handle that the elevation put in.
      simpa [elevated, brackets_cons, elevatedAfter] using ih

/-- Where a row of brackets is broken off, it is a row of brackets. -/
theorem prefix_brackets {closed : List ExecHandle} {last : Option ExecHandle}
    {p : List PriorityEvent} (hp : p <+: brackets c level closed last) :
    ∃ front left, p = brackets c level front left := by
  induction closed generalizing p with
  | nil =>
      cases last with
      | none => exact ⟨[], none, List.prefix_nil.1 hp⟩
      | some h =>
          rcases List.prefix_cons_iff.1 hp with rfl | ⟨q, rfl, hq⟩
          · exact ⟨[], none, rfl⟩
          · exact ⟨[], some h, by rw [List.prefix_nil.1 hq]; rfl⟩
  | cons h closed ih =>
      rw [brackets_cons] at hp
      rcases List.prefix_cons_iff.1 hp with rfl | ⟨q, rfl, hq⟩
      · exact ⟨[], none, rfl⟩
      · rcases List.prefix_cons_iff.1 hq with rfl | ⟨r, rfl, hr⟩
        · exact ⟨[], some h, rfl⟩
        · obtain ⟨front, left, rfl⟩ := ih hr
          exact ⟨h :: front, left, rfl⟩

end PriorityLog

/-! ### The holder's handle -/

namespace Schedule

variable {s next : Schedule}

/-- The handle of the slot's holder. -/
def holderHandle? (s : Schedule) : Option ExecHandle := s.holder?.map fun h => h.2.handle

theorem holderHandle?_eq_some_iff {h : ExecHandle} : s.holderHandle? = some h ↔ s.HeldBy h := by
  constructor
  · intro hh
    obtain ⟨⟨id, t⟩, hholder, rfl⟩ := Option.map_eq_some_iff.1 hh
    obtain ⟨j, hc, hj⟩ := Option.bind_eq_some_iff.1 hholder
    obtain ⟨u, hu, heq⟩ := Option.map_eq_some_iff.1 hj
    cases heq
    exact ⟨id, t, hc, hu, rfl⟩
  · rintro ⟨id, t, hc, ht, rfl⟩
    simp [holderHandle?, Sound.holder?_eq hc ht]

theorem holderHandle?_of_free (hc : s.current = none) : s.holderHandle? = none := by
  simp [holderHandle?, Sound.holder?_eq_none hc]

/-- Nobody's handle is found exactly where nobody holds the slot. -/
theorem Sound.holderHandle?_eq_none_iff (h : s.Sound) :
    s.holderHandle? = none ↔ s.current = none := by
  refine ⟨fun hnone => Option.eq_none_iff_forall_ne_some.2 fun id hc => ?_, holderHandle?_of_free⟩
  obtain ⟨t, ht, -⟩ := h.holds id hc
  rw [holderHandle?_eq_some_iff.2 ⟨id, t, hc, ht, rfl⟩] at hnone
  cases hnone

/-- A holder who was left alone has the handle he had. -/
theorem HolderKept.holderHandle?_eq (h : s.HolderKept next) (hc : next.current = s.current) :
    next.holderHandle? = s.holderHandle? := by
  cases hid : next.current with
  | none => rw [holderHandle?_of_free hid, holderHandle?_of_free (hc ▸ hid)]
  | some id => simp [holderHandle?, holder?, (h id hid).1, hid, (h id hid).2]

/-- Confirming a grant leaves the slot to the same handle. -/
theorem Sound.holderHandle?_confirm (h : s.Sound) {id : TaskId} {t : Task}
    (hc : s.current = some id) (ht : s.task? id = some t) :
    (s.confirm id).2.holderHandle? = some t.handle :=
  have hheld : s.HeldBy t.handle := ⟨id, t, hc, ht, rfl⟩
  holderHandle?_eq_some_iff.2
    (hheld.of_sameEntries (h.current_confirm id) (h.sameEntries_confirm id))

/-- Who does not hold the slot leaves it to its holder. -/
theorem slotWithout_of_not_holdsSlot {id : TaskId} (h : s.holdsSlot id = false) :
    s.slotWithout id = s.current := by
  simp [slotWithout, h]

/-- A yield frees the slot of its own task, or leaves it to its holder. -/
theorem Yields.holderHandle?_cases {id : TaskId} {now : Instant} {y : YieldResult}
    (h : s.Yields id now y next) :
    (y.freedSlot = true ∧ s.holderHandle? = some y.handle ∧ next.holderHandle? = none) ∨
      (y.freedSlot = false ∧ next.holderHandle? = s.holderHandle?) := by
  cases hfreed : y.freedSlot with
  | true =>
      have hfree := h.current_of_freed hfreed
      refine Or.inl ⟨rfl, holderHandle?_eq_some_iff.2 ?_, holderHandle?_of_free hfree⟩
      cases h with
      | nothing _ _ => cases hfreed
      | sleep task _ _ => exact ⟨id, _, of_decide_eq_true hfreed, task, rfl⟩
      | requeue task _ _ => exact ⟨id, _, of_decide_eq_true hfreed, task, rfl⟩
  | false =>
      refine Or.inr ⟨rfl, h.holderKept.holderHandle?_eq ?_⟩
      cases h with
      | nothing _ _ => rfl
      | sleep _ _ _ => exact slotWithout_of_not_holdsSlot hfreed
      | requeue _ _ _ => exact slotWithout_of_not_holdsSlot hfreed

end Schedule

/-! ### Handing the slot over -/

namespace Dispatcher

variable {d next : Dispatcher}

/-- What an operation can do to the requests and to the slot's holder. -/
inductive Handover (d : Dispatcher) : Dispatcher → Prop where
  /-- Neither is touched. -/
  | stay {next : Schedule} (same : next.holderHandle? = d.schedule.holderHandle?) :
      Handover d { d with schedule := next }
  /-- A task takes the free slot. -/
  | take {h : ExecHandle} {next : Schedule} (free : d.schedule.holderHandle? = none)
      (holds : next.holderHandle? = some h) : Handover d { d.elevate h with schedule := next }
  /-- The holder leaves the slot. -/
  | leave {h : ExecHandle} {next : Schedule} (held : d.schedule.holderHandle? = some h)
      (free : next.holderHandle? = none) : Handover d { d.reset h with schedule := next }
  /-- The holder loses the slot to another task, whose handle may be the same. -/
  | pass {h k : ExecHandle} {next : Schedule} (held : d.schedule.holderHandle? = some h)
      (holds : next.holderHandle? = some k) :
      Handover d { (d.reset h).elevate k with schedule := next }

theorem schedule_resume (d : Dispatcher) (id : TaskId) (h : ExecHandle) :
    (d.resume id h).schedule = (d.schedule.confirm id).2 := by
  simp only [resume]
  split <;> next heq => exact (congrArg (fun x => x.2.schedule) heq).symm

/-- A task that holds the slot when it is elevated is confirmed, and nothing is undone. -/
theorem resume_of_holds {id : TaskId} (hs : d.schedule.Sound) (hc : d.schedule.current = some id)
    (h : ExecHandle) :
    d.resume id h = { d.elevate h with schedule := (d.schedule.confirm id).2 } := by
  rcases hs.confirm_cases id with ⟨t, -, -, -, -, heq⟩ | ⟨hne, -⟩
  · have helevated : (d.elevate h).schedule.confirm id = d.schedule.confirm id := rfl
    simp only [resume, confirm, helevated, heq]
  · exact absurd hc hne

/-- **A round of the dispatcher leaves the holder alone or hands the slot over.**  Nobody comes in
between, so no grant is undone. -/
theorem handover_dispatch (hs : d.schedule.Sound) : d.Handover d.dispatch.2 := by
  have hsound := hs.evaluate
  have hcases := hs.evaluates
  simp only [dispatch, evaluate]
  generalize d.schedule.evaluate.1 = decision at hcases
  generalize d.schedule.evaluate.2 = next at hcases hsound
  cases hcases with
  | idle _ => exact .stay rfl
  | keep _ _ _ _ _ => exact .stay rfl
  | @grant head u _ _ _ _ current _ _ _ =>
      have hu := Schedule.task?_award_self d.schedule head u
      have hholds := hsound.holderHandle?_confirm rfl hu
      rw [Task.handle_grant] at hholds
      simp only [apply]
      rw [resume_of_holds (d := { d with schedule := d.schedule.award head u }) hsound rfl]
      exact .take (Schedule.holderHandle?_of_free current) hholds
  | @preempt running head t u _ _ _ _ current task _ _ _ _ _ =>
      have hu := Schedule.task?_displace_head d.schedule running head t u
      have hholds := hsound.holderHandle?_confirm rfl hu
      rw [Task.handle_grant] at hholds
      simp only [apply]
      rw [resume_of_holds
        (d := reset { d with schedule := d.schedule.displace running t head u } t.handle) hsound rfl]
      exact .pass (Schedule.holderHandle?_eq_some_iff.2 ⟨running, t, current, task, rfl⟩) hholds

/-- The requests are well bracketed, and the elevation that is left open is the holder's. -/
structure Bracketed (c : SchedClass) (level : Int32) (d : Dispatcher) : Prop where
  /-- Whoever takes the slot is elevated into this class. -/
  classed : d.schedClass = c
  /-- Whoever takes the slot is elevated to this level. -/
  leveled : d.level = level
  /-- The log is a row of brackets that is closed up to the holder. -/
  log : ∃ closed, d.priorities.events =
    PriorityLog.brackets c level closed d.schedule.holderHandle?

/-- Handing the slot over keeps the requests well bracketed. -/
theorem Bracketed.handover {c : SchedClass} {level : Int32} (hd : d.Bracketed c level)
    (h : d.Handover next) : next.Bracketed c level := by
  obtain ⟨rfl, rfl, closed, hlog⟩ := hd
  refine ⟨by cases h <;> rfl, by cases h <;> rfl, ?_⟩
  cases h with
  | stay same => exact ⟨closed, by rw [same]; exact hlog⟩
  | @take h _ free holds =>
      refine ⟨closed, ?_⟩
      rw [free] at hlog
      rw [holds, ← PriorityLog.brackets_elevate, ← hlog]
      rfl
  | @leave h _ held free =>
      refine ⟨closed ++ [h], ?_⟩
      rw [held] at hlog
      rw [free, ← PriorityLog.brackets_reset, ← hlog]
      rfl
  | @pass h k _ held holds =>
      refine ⟨closed ++ [h], ?_⟩
      rw [held] at hlog
      rw [holds, ← PriorityLog.brackets_elevate, ← PriorityLog.brackets_reset, ← hlog]
      rfl

end Dispatcher

/-! ### Whole operations -/

/-- A call, with the tasks that are alive and the time when it is made. -/
structure Operation where
  resolver : Resolver
  now : Instant
  call : Call

namespace Scheduler

variable {s : Scheduler}

/-- The scheduler after an operation. -/
def operate (s : Scheduler) (o : Operation) : Scheduler := (s.perform o.resolver o.now o.call).2

/-- The scheduler after a run of operations. -/
def operated (s : Scheduler) (run : List Operation) : Scheduler := run.foldl operate s

/-- Starting the loop is a matter of the loop and of the wakes. -/
theorem dispatcher_start (s : Scheduler) :
    s.start.2.dispatcher = s.dispatcher ∧ s.start.2.registry = s.registry := by
  unfold start
  split
  · exact ⟨rfl, rfl⟩
  · split <;> exact ⟨rfl, rfl⟩

theorem dispatcher_endLoop (s : Scheduler) : s.endLoop.dispatcher = s.dispatcher := by
  unfold endLoop
  split <;> rfl

/-- A round of the dispatcher evaluates the schedule, and confirms a grant if there is one. -/
theorem schedule_dispatch (s : Scheduler) :
    s.dispatch.schedule = s.schedule.evaluate.2 ∨
      ∃ id, s.dispatch.schedule = (s.schedule.evaluate.2.confirm id).2 := by
  simp only [dispatch, Scheduler.schedule, Dispatcher.dispatch]
  cases s.dispatcher.evaluate.1 with
  | idle => exact Or.inl rfl
  | keep _ _ => exact Or.inl rfl
  | grant id h => exact Or.inr ⟨id, Dispatcher.schedule_resume _ id h⟩
  | preempt _ _ id h => exact Or.inr ⟨id, Dispatcher.schedule_resume _ id h⟩

/-- **An operation keeps registry, schedule, queue and slot consistent.** -/
theorem Consistent.operate (h : s.Consistent) (o : Operation) : (s.operate o).Consistent := by
  obtain ⟨resolver, now, call⟩ := o
  cases call with
  | register t => exact h.take (.register resolver now t)
  | deregister id => exact h.take (.deregister id)
  | beginYield id => exact h.take (.beginYield id now)
  | start =>
      obtain ⟨hdispatcher, hregistry⟩ := dispatcher_start s
      have hschedule : s.start.2.schedule = s.schedule := congrArg Dispatcher.schedule hdispatcher
      exact h.of_schedule hregistry (hschedule ▸ h.sound) (hschedule ▸ fun _ => rfl)
  | stop => exact h.take .stop
  | release id => exact h.take (.release id)
  | dispatch =>
      -- The round is an evaluation with or without a confirmation; requests are another matter.
      have hevaluated := h.take .evaluate
      rcases schedule_dispatch s with heq | ⟨id, heq⟩
      · exact hevaluated.of_schedule rfl (heq ▸ hevaluated.sound) (heq ▸ fun _ => rfl)
      · have hconfirmed := hevaluated.take (.confirm id)
        exact hconfirmed.of_schedule rfl (heq ▸ hconfirmed.sound) (heq ▸ fun _ => rfl)

theorem Consistent.handover_deregister (h : s.Consistent) (id : TaskId) :
    s.dispatcher.Handover (s.deregister id).2.dispatcher := by
  rw [deregister_eq h.free]
  cases hfind : s.registry.find? id with
  | none => exact .stay rfl
  | some e =>
      -- What else a deregistration does, it does to registry, timers and wakes.
      have hdispatcher : (s.delisted id e).dispatcher =
          { (if s.schedule.holdsSlot id then s.dispatcher.reset e.handle else s.dispatcher) with
            schedule := (s.schedule.withdraw id).2 } := by
        unfold Scheduler.delisted
        cases s.schedule.holdsSlot id <;> rfl
      simp only [hdispatcher]
      cases hholds : s.schedule.holdsSlot id with
      | true =>
          have hc : s.schedule.current = some id := of_decide_eq_true hholds
          obtain ⟨t, ht, -⟩ := h.sound.holds id hc
          -- The entry that is struck off is the holder's.
          obtain rfl : t.entry = e := Option.some.inj ((h.agrees.find?_eq ht).symm.trans hfind)
          refine .leave (Schedule.holderHandle?_eq_some_iff.2 ⟨id, t, hc, ht, rfl⟩) ?_
          exact Schedule.holderHandle?_of_free (if_pos hholds)
      | false =>
          exact .stay ((Schedule.holderKept_withdraw s.schedule id).holderHandle?_eq
            (Schedule.slotWithout_of_not_holdsSlot hholds))

theorem Consistent.handover_beginYield (h : s.Consistent) (now : Instant) (id : TaskId) :
    s.dispatcher.Handover (s.beginYield now id).2.dispatcher := by
  rw [beginYield_eq h.free]
  split
  · cases he : s.schedule.endJob id now with
    | error e => exact .stay rfl
    | ok r =>
        obtain ⟨y, next⟩ := r
        -- What else a yield does, it does to timers and wakes.
        have hdispatcher : (s.yielded id y next).dispatcher =
            { (if y.freedSlot then s.dispatcher.reset y.handle else s.dispatcher) with
              schedule := next } := by
          unfold yielded
          cases y.armAt <;> cases y.freedSlot <;> cases endedJob y.outcome <;> rfl
        simp only [hdispatcher]
        rcases (Schedule.yields_of_endJob he).holderHandle?_cases with
          ⟨hfreed, hheld, hfree⟩ | ⟨hkept, hsame⟩
        · rw [hfreed]
          exact .leave hheld hfree
        · rw [hkept]
          exact .stay hsame
  · exact .stay rfl

theorem handover_stop (s : Scheduler) : s.dispatcher.Handover s.stop.dispatcher := by
  cases hs : s.stopRequested with
  | true =>
      rw [stop_of_stopRequested hs]
      exact .stay rfl
  | false =>
      have hfree : s.schedule.stop.2.holderHandle? = none := Schedule.holderHandle?_of_free rfl
      simp only [stop, hs, Bool.false_eq_true, if_false]
      split
      · next handle held =>
          simp only [reset, shutTimers, dispatcher_endLoop]
          exact .leave (d := s.dispatcher) held hfree
      · next nobody =>
          simp only [shutTimers, dispatcher_endLoop]
          exact .stay (d := s.dispatcher) (hfree.trans nobody.symm)

/-- **Every operation leaves requests and holder alone, or hands the slot over.** -/
theorem Consistent.handover (h : s.Consistent) (o : Operation) :
    s.dispatcher.Handover (s.operate o).dispatcher := by
  obtain ⟨resolver, now, call⟩ := o
  cases call with
  | register t =>
      simp only [Scheduler.operate, perform, register_eq h.free]
      cases hv : s.vet resolver now t with
      | error e => exact .stay rfl
      | ok r =>
          have hnew := h.agrees.task?_eq_none (contains_of_vet hv)
          exact .stay ((h.sound.holderKept_put (t := RegistryEntry.asleep ⟨t, r.1⟩ r.2)
            hnew).holderHandle?_eq rfl)
  | deregister id => exact h.handover_deregister id
  | beginYield id => exact h.handover_beginYield now id
  | start =>
      simp only [Scheduler.operate, perform, (dispatcher_start s).1]
      exact .stay rfl
  | stop => exact handover_stop s
  | release id =>
      have hreleased : (s.release id).dispatcher =
          { s.dispatcher with schedule := (s.schedule.release id).2 } := by
        unfold release releaseTask
        cases s.schedule.release id with
        | mk outcome next => cases outcome <;> rfl
      simp only [Scheduler.operate, perform, hreleased]
      exact .stay ((h.sound.holderKept_release id).holderHandle?_eq
        (Schedule.current_release s.schedule id))
  | dispatch => exact Dispatcher.handover_dispatch h.sound

/-! ### Runs of operations -/

/-- A run of operations keeps scheduler and requests in order. -/
theorem Consistent.operated {c : SchedClass} {level : Int32} (h : s.Consistent)
    (hd : s.dispatcher.Bracketed c level) (run : List Operation) :
    (s.operated run).Consistent ∧ (s.operated run).dispatcher.Bracketed c level := by
  induction run generalizing s with
  | nil => exact ⟨h, hd⟩
  | cons o run ih => exact ih (h.operate o) (hd.handover (h.handover o))

/-- The priority requests of a scheduler are well bracketed. -/
structure WellBracketed (c : Config) (s : Scheduler) : Prop where
  /-- Every elevation is into the configured class and level and is followed by its reset, but for
  one at the end: it is there while a task holds the slot, and names the handle that this task was
  registered with. -/
  paired : ∃ closed last,
    s.dispatcher.priorities.events = PriorityLog.brackets c.rtClass c.rtLevel closed last ∧
      (last = none ↔ s.schedule.current = none) ∧
      ∀ id, s.schedule.current = some id → ∃ t, s.schedule.task? id = some t ∧
        s.registry.find? id = some t.entry ∧ last = some t.handle
  /-- After no part of the requests is more than one handle elevated. -/
  single : ∀ p, p <+: s.dispatcher.priorities.events → (PriorityLog.mk p).elevated.length ≤ 1

/-- **The requests of every run of operations are well bracketed.** -/
theorem wellBracketed_operated {c : Config} (hs : Scheduler.new c = .ok s)
    (run : List Operation) : (s.operated run).WellBracketed c := by
  obtain ⟨-, rfl⟩ := new_eq_ok hs
  have hempty : (ofConfig c).dispatcher.Bracketed c.rtClass c.rtLevel := ⟨rfl, rfl, [], rfl⟩
  obtain ⟨hconsistent, -, -, closed, hlog⟩ := (consistent_ofConfig c).operated hempty run
  refine ⟨⟨closed, _, hlog, hconsistent.sound.holderHandle?_eq_none_iff, fun id hc => ?_⟩, ?_⟩
  · obtain ⟨t, ht, -⟩ := hconsistent.sound.holds id hc
    exact ⟨t, ht, hconsistent.agrees.find?_eq ht,
      Schedule.holderHandle?_eq_some_iff.2 ⟨id, t, hc, ht, rfl⟩⟩
  · intro p hp
    rw [hlog] at hp
    obtain ⟨front, last, rfl⟩ := PriorityLog.prefix_brackets hp
    rw [PriorityLog.elevated_brackets]
    cases last <;> simp

/-- Two tasks share a handle.  One takes the slot from the other, which yields although it has lost
the slot; then the slot's holder yields.  A third task is deregistered while it holds the slot, and
the first takes it once more. -/
def sharing : List Operation :=
  [.register ⟨⟨1⟩, Duration.ofMillis 100, Duration.ofMillis 1⟩,
    .register ⟨⟨2⟩, Duration.ofMillis 50, Duration.ofMillis 1⟩,
    .register ⟨⟨3⟩, Duration.ofMillis 200, Duration.ofMillis 1⟩,
    .release ⟨1⟩, .dispatch, .release ⟨2⟩, .dispatch, .beginYield ⟨1⟩, .beginYield ⟨2⟩,
    .release ⟨3⟩, .dispatch, .deregister ⟨3⟩, .release ⟨1⟩, .dispatch].map fun call =>
      ⟨fun id => some ⟨if id = ⟨3⟩ then 3 else 7⟩, Instant.start, call⟩

theorem wellBracketed_of_sharing :
    Scheduler.new Config.default = .ok (ofConfig Config.default) ∧
      ((ofConfig Config.default).operated sharing).schedule.current = some ⟨1⟩ ∧
      ((ofConfig Config.default).operated sharing).dispatcher.priorities.events =
        PriorityLog.brackets .fifo 99 [⟨7⟩, ⟨7⟩, ⟨3⟩] (some ⟨7⟩) ∧
      ((ofConfig Config.default).operated sharing).WellBracketed Config.default :=
  ⟨rfl, by decide, by decide, wellBracketed_operated (c := Config.default) rfl sharing⟩

end Scheduler

end RateMonotonic
