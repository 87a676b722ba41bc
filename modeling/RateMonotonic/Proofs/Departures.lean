/-
**What a deregistration leaves, and what it leaves alone.**

A deregistration as one step takes a task out of the registry, the timers, the records, the queue
and the slot, and wakes the dispatcher.  Nothing is left of the task then, and nothing has happened
to the others.  If the task has been registered just before, everything about the tasks is as it was
before that: records, timers and entries are listed in the order in which they came, and the task
was the last one to come.

Main definitions:
* `Scheduler.Absent` — nothing is left of a task;
* `Scheduler.Spared`, `Scheduler.Restores` — what a deregistration leaves alone, and what it undoes.

Main results:
* `Scheduler.absent_of_unlisted` — nothing is left of an unregistered task but a timer;
* `Scheduler.absent_of_deregister`, `Scheduler.spared_of_deregister` — **a deregistration takes one
  task away and leaves the others as they are**;
* `Scheduler.restores_of_register` — **it undoes a registration**.
-/

import RateMonotonic.Proofs.RegistryAgreement

set_option relaxedAutoImplicit false
set_option autoImplicit false

namespace RateMonotonic

/-! ### Absent tasks -/

/-- Whoever is given the slot has a record. -/
theorem Schedule.Sound.exists_of_grantee {s : Schedule} (h : s.Sound) {id : TaskId}
    (hwins : s.evaluate.1.grantee = some id) : ∃ t, s.task? id = some t := by
  have hcases := h.evaluates
  generalize s.evaluate.1 = d at hcases hwins
  generalize s.evaluate.2 = next at hcases
  cases hcases with
  | grant _ _ _ task _ _ =>
      cases hwins
      exact ⟨_, task⟩
  | preempt _ _ _ _ _ _ headTask _ _ =>
      cases hwins
      exact ⟨_, headTask⟩
  | _ => cases hwins

namespace Scheduler

/-- Nothing is left of a task. -/
structure Absent (s : Scheduler) (id : TaskId) : Prop where
  /-- It is not registered. -/
  unlisted : s.registry.contains id = false
  /-- It has no record. -/
  unrecorded : s.schedule.task? id = none
  /-- It is not queued. -/
  unqueued : id ∉ s.schedule.ready.ids
  /-- It does not hold the slot. -/
  slotless : s.schedule.current ≠ some id
  /-- It has no timer. -/
  unarmed : s.timers.deadline? id = none
  /-- A release of it has no effect. -/
  unreleased : s.releaseTask id = (.unknown, s)
  /-- An evaluation does not give it the slot. -/
  ungranted : s.schedule.evaluate.1.grantee ≠ some id
  /-- A grant that was decided before is not confirmed. -/
  unconfirmed : s.schedule.confirm id = (false, s.schedule)

/-- **Nothing is left of an unregistered task** but a timer. -/
theorem absent_of_unlisted {s : Scheduler} {leaving : Option TaskId} {id : TaskId}
    (hs : s.schedule.Sound) (hmatches : s.Matches leaving)
    (hunlisted : s.registry.contains id = false) (hunarmed : s.timers.deadline? id = none) :
    s.Absent id := by
  have hnone := hmatches.task?_eq_none hunlisted
  have hstate : ∀ a, ∀ t, s.schedule.task? id = some t → t.state ≠ a := by
    intro a t ht
    rw [hnone] at ht
    cases ht
  have hslot := hs.current_ne (hstate .running)
  refine ⟨hunlisted, hnone, hs.not_mem_ids (hstate .ready), hslot, hunarmed, ?_, ?_, ?_⟩
  · simp only [releaseTask, Schedule.release_unknown hnone]
    rfl
  · intro hwins
    obtain ⟨t, ht⟩ := hs.exists_of_grantee hwins
    rw [hnone] at ht
    cases ht
  · rcases hs.confirm_cases id with ⟨_, hc, -⟩ | ⟨-, heq⟩
    · exact absurd hc hslot
    · exact heq

end Scheduler

/-! ### A whole deregistration -/

namespace Scheduler

/-- A deregistration takes one task away and leaves the others as they are. -/
structure Spared (s next : Scheduler) (id : TaskId) : Prop where
  /-- The others stay registered, in their order. -/
  entries : next.registry.entries = s.registry.entries.filter (·.info.id ≠ id)
  /-- They keep their records. -/
  records : ∀ j, j ≠ id → next.schedule.task? j = s.schedule.task? j
  /-- They keep their timers. -/
  timers : ∀ j, j ≠ id → next.timers.deadline? j = s.timers.deadline? j
  /-- They stay queued, in their order. -/
  ready : next.schedule.ready.row = s.schedule.ready.row.filter (·.1 ≠ id)
  /-- Whoever holds the slot goes on to hold it. -/
  current : next.schedule.current = if s.schedule.current = some id then none
    else s.schedule.current

/-- Everything about the tasks is as it was. -/
structure Restores (s next : Scheduler) : Prop where
  /-- The same tasks are registered, in the same order. -/
  snapshot : next.snapshot = s.snapshot
  /-- They take the same together. -/
  utilization : next.utilization = s.utilization
  /-- The records, the queue and the slot are the same. -/
  schedule : next.schedule = s.schedule
  /-- The same timers are pending. -/
  pending : next.timers.pending = s.timers.pending

variable {s : Scheduler} {id : TaskId}

/-- Deregistering a registered task is never refused when the registry is free. -/
theorem deregister_of_contains (hfree : s.registry.held = false)
    (hlisted : s.registry.contains id = true) : (s.deregister id).1 = .ok (.deregistered id) := by
  obtain ⟨e, he⟩ := Registry.find?_of_contains hlisted
  rw [deregister_eq hfree, he]

theorem held_of_deregister {r : Reply} (h : (s.deregister id).1 = .ok r) :
    s.registry.held = false := by
  cases hheld : s.registry.held with
  | false => rfl
  | true =>
      simp only [deregister, enterFor, enter_of_held hheld] at h
      cases h

theorem held_of_register {resolver : Resolver} {now : Instant} {t : TaskInfo} {r : Reply}
    (h : (s.register resolver now t).1 = .ok r) : s.registry.held = false := by
  cases hheld : s.registry.held with
  | false => rfl
  | true =>
      simp only [register, enter_of_held hheld] at h
      split at h <;> cases h

/-- What a deregistration leaves, apart from priorities and wakes. -/
theorem delisted_eq (s : Scheduler) (id : TaskId) (e : RegistryEntry) :
    (s.delisted id e).registry =
        { s.registry with entries := s.registry.entries.eraseP (·.info.id = id) } ∧
      (s.delisted id e).schedule = (s.schedule.withdraw id).2 ∧
        (s.delisted id e).timers = s.timers.cancel id := by
  unfold delisted
  cases s.schedule.holdsSlot id <;> exact ⟨rfl, rfl, rfl⟩

/-- **A deregistration takes one task away and leaves the others as they are.** -/
theorem spared_of_deregister {leaving : Option TaskId} (hmatches : s.Matches leaving) {r : Reply}
    (h : (s.deregister id).1 = .ok r) : s.Spared (s.deregister id).2 id := by
  have hfree := held_of_deregister h
  rw [deregister_eq hfree] at h ⊢
  cases hfind : s.registry.find? id with
  | none =>
      rw [hfind] at h
      cases h
  | some e =>
      obtain ⟨hregistry, hschedule, htimers⟩ := s.delisted_eq id e
      simp only
      constructor
      · rw [hregistry]
        exact Registry.entries_eraseP hmatches.distinct id
      · intro j hj
        rw [hschedule, Schedule.task?_withdraw, if_neg (Ne.symm hj)]
      · intro j hj
        rw [htimers, Timers.deadline?_cancel, if_neg (Ne.symm hj)]
      · rw [hschedule]
        exact ReadyQueue.row_remove s.schedule.ready id
      · rw [hschedule]
        simp only [Schedule.withdraw, Schedule.slotWithout, Schedule.holdsSlot, decide_eq_true_iff]

/-- Nothing is left of a task after its deregistration. -/
theorem absent_of_deregister (hs : s.schedule.Sound) (hmatches : s.Matches none) {r : Reply}
    (h : (s.deregister id).1 = .ok r) : (s.deregister id).2.Absent id := by
  have hfree := held_of_deregister h
  rw [deregister_eq hfree] at h ⊢
  cases hfind : s.registry.find? id with
  | none =>
      rw [hfind] at h
      cases h
  | some e =>
      obtain ⟨hregistry, hschedule, htimers⟩ := s.delisted_eq id e
      have hsound : (s.delisted id e).schedule.Sound := by
        rw [hschedule]
        exact hs.withdraw id
      have hagree : (s.delisted id e).Matches none := by
        refine (hmatches.withdraw id).struck.of_sameEntries (by rw [hregistry]; rfl) fun j => ?_
        rw [hschedule]
        rfl
      have hunlisted : (s.delisted id e).registry.contains id = false := by
        rw [hregistry]
        refine (Registry.contains_eraseP hmatches.distinct id id _).trans ?_
        rw [decide_eq_false (fun hne => hne rfl), Bool.false_and]
      have hunarmed : (s.delisted id e).timers.deadline? id = none := by
        rw [htimers, Timers.deadline?_cancel, if_pos rfl]
      exact absent_of_unlisted hsound hagree hunlisted hunarmed

theorem snapshot_of_registry {next : Scheduler} (h : next.registry = s.registry) :
    next.snapshot = s.snapshot ∧ next.utilization = s.utilization := by
  simp only [snapshot, utilization, h, and_self]

theorem unlisted_of_register {resolver : Resolver} {now : Instant} {t : TaskInfo} {r : Reply}
    (h : (s.register resolver now t).1 = .ok r) : s.registry.contains t.id = false := by
  rw [register_eq (held_of_register h)] at h
  cases hvet : s.vet resolver now t with
  | error _ =>
      rw [hvet] at h
      cases h
  | ok v => exact contains_of_vet hvet

/-- **A registration is undone by a deregistration**, if nothing was left of the task before. -/
theorem restores_of_register {resolver : Resolver} {now : Instant} {t : TaskInfo}
    (habsent : s.Absent t.id) {r : Reply} (h : (s.register resolver now t).1 = .ok r) :
    ((s.register resolver now t).2.deregister t.id).1 = .ok (.deregistered t.id) ∧
      s.Restores ((s.register resolver now t).2.deregister t.id).2 := by
  have hfree := held_of_register h
  rw [register_eq hfree] at h ⊢
  cases hvet : s.vet resolver now t with
  | error _ =>
      rw [hvet] at h
      cases h
  | ok v =>
      obtain ⟨handle, first⟩ := v
      simp only
      have hfind : (s.enlisted ⟨t, handle⟩ first).registry.find? t.id = some ⟨t, handle⟩ :=
        (Registry.find?_append s.registry ⟨t, handle⟩ s.registry.held t.id habsent.unlisted).trans
          (if_pos rfl)
      rw [deregister_eq (s := s.enlisted ⟨t, handle⟩ first) hfree, hfind]
      obtain ⟨hregistry, hschedule, htimers⟩ :=
        (s.enlisted ⟨t, handle⟩ first).delisted_eq t.id ⟨t, handle⟩
      have hsame : ((s.enlisted ⟨t, handle⟩ first).delisted t.id ⟨t, handle⟩).registry =
          s.registry := by
        rw [hregistry]
        exact congrArg (fun entries => { s.registry with entries := entries })
          (Registry.eraseP_append (e := ⟨t, handle⟩) habsent.unlisted)
      obtain ⟨hsnapshot, hutilization⟩ := snapshot_of_registry hsame
      refine ⟨rfl, hsnapshot, hutilization, ?_, ?_⟩
      · rw [hschedule]
        exact Schedule.withdraw_put (t := RegistryEntry.asleep ⟨t, handle⟩ first)
          habsent.unrecorded habsent.unqueued habsent.slotless
      · rw [htimers]
        exact Timers.pending_cancel_arm habsent.unarmed first

end Scheduler

end RateMonotonic
