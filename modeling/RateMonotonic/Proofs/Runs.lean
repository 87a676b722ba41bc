/-
**Runs of the scheduler**, one whole transition after the other.

A transition is an operation of a client, a release, or one of the two steps in which the
dispatcher touches the schedule.  Whatever the transitions and their order, registry, schedule,
queue and slot stay coherent; that the queue holds *every* ready task takes numbers that have not
run out.

Main definitions:
* `Transition`, `Scheduler.take`, `Scheduler.after` — one transition, and a run of them;
* `Scheduler.Consistent` — the invariant of every run;
* `Scheduler.Kept` — the invariant of a run of at most so many transitions;
* `Scheduler.Coherent` — what a client can rely on in every state.

Main results:
* `Scheduler.Consistent.moves` — a transition touches the schedule once at most;
* `Scheduler.Consistent.take`, `Scheduler.Kept.take` — **a transition keeps the invariants**;
* `Scheduler.coherent_after` — **every state of a run is coherent**.
-/

import RateMonotonic.Proofs.RegistryAgreement

set_option relaxedAutoImplicit false
set_option autoImplicit false

namespace RateMonotonic

/-- What can happen to a scheduler at once. -/
inductive Transition where
  | register (resolver : Resolver) (now : Instant) (t : TaskInfo)
  | deregister (id : TaskId)
  | beginYield (id : TaskId) (now : Instant)
  | release (id : TaskId)
  | evaluate
  | confirm (id : TaskId)
  | stop

namespace Scheduler

/-- The scheduler after a transition. -/
def take (s : Scheduler) : Transition → Scheduler
  | .register resolver now t => (s.register resolver now t).2
  | .deregister id => (s.deregister id).2
  | .beginYield id now => (s.beginYield now id).2
  | .release id => s.release id
  | .evaluate => { s with dispatcher := s.dispatcher.evaluate.2 }
  | .confirm id => { s with dispatcher := (s.dispatcher.confirm id).2 }
  | .stop => s.stop

/-- The scheduler after a run of transitions. -/
def after (s : Scheduler) (run : List Transition) : Scheduler := run.foldl take s

@[simp] theorem after_nil (s : Scheduler) : s.after [] = s := rfl

@[simp] theorem after_cons (s : Scheduler) (m : Transition) (run : List Transition) :
    s.after (m :: run) = (s.take m).after run := rfl

theorem after_append (s : Scheduler) (run more : List Transition) :
    s.after (run ++ more) = (s.after run).after more := List.foldl_append

/-- What every run keeps. -/
structure Consistent (s : Scheduler) : Prop where
  /-- Queue and slot agree with the records. -/
  sound : s.schedule.Sound
  /-- Registry and schedule list the same tasks. -/
  agrees : s.Matches none
  /-- Nobody holds the registry between two transitions. -/
  free : s.registry.held = false

/-- What every run of at most `n` transitions keeps. -/
structure Kept (n : ℕ) (s : Scheduler) : Prop where
  /-- Queue and slot agree with the records. -/
  sound : s.schedule.Sound
  /-- Every ready task is queued. -/
  complete : s.schedule.Complete n
  /-- Registry and schedule list the same tasks. -/
  agrees : s.Matches none
  /-- Nobody holds the registry between two transitions. -/
  free : s.registry.held = false

theorem kept_ofConfig (c : Config) : (ofConfig c).Kept 0 where
  sound := Schedule.sound_empty
  complete := Schedule.complete_empty
  agrees := ⟨by simp [ofConfig, Registry.empty, Registry.ids], fun _ _ => rfl, by simp⟩
  free := rfl

/-! ### What a transition does to schedule and registry -/

theorem schedule_release (s : Scheduler) (id : TaskId) :
    (s.release id).schedule = (s.schedule.release id).2 ∧
      (s.release id).registry = s.registry := by
  unfold release releaseTask
  cases s.schedule.release id with
  | mk outcome next => cases outcome <;> exact ⟨rfl, rfl⟩

theorem schedule_endLoop (s : Scheduler) :
    s.endLoop.schedule = s.schedule ∧ s.endLoop.registry = s.registry := by
  unfold endLoop
  split <;> exact ⟨rfl, rfl⟩

theorem schedule_stop (s : Scheduler) :
    (s.stop.schedule = s.schedule ∨ s.stop.schedule = s.schedule.stop.2) ∧
      s.stop.registry = s.registry := by
  cases hs : s.stopRequested with
  | true =>
      rw [stop_of_stopRequested hs]
      exact ⟨Or.inl rfl, rfl⟩
  | false =>
      simp only [stop, hs, Bool.false_eq_true, if_false, halt]
      -- The loop, the timers and the priorities are another matter.
      split
      · exact ⟨Or.inr (schedule_endLoop _).1, (schedule_endLoop _).2⟩
      · exact ⟨Or.inr (schedule_endLoop _).1, (schedule_endLoop _).2⟩

theorem schedule_yielded (s : Scheduler) (id : TaskId) (y : YieldResult) (next : Schedule) :
    (s.yielded id y next).schedule = next ∧ (s.yielded id y next).registry = s.registry := by
  unfold yielded
  cases y.armAt <;> cases y.freedSlot <;> cases endedJob y.outcome <;> exact ⟨rfl, rfl⟩

theorem schedule_delisted (s : Scheduler) (id : TaskId) (e : RegistryEntry) :
    (s.delisted id e).schedule = (s.schedule.withdraw id).2 ∧
      (s.delisted id e).registry =
        { s.registry with entries := s.registry.entries.eraseP (·.info.id = id) } := by
  unfold delisted
  cases s.schedule.holdsSlot id <;> exact ⟨rfl, rfl⟩

/-! ### The invariant -/

theorem Kept.consistent {s : Scheduler} {n : ℕ} (h : s.Kept n) : s.Consistent :=
  ⟨h.sound, h.agrees, h.free⟩

theorem consistent_ofConfig (c : Config) : (ofConfig c).Consistent := (kept_ofConfig c).consistent

/-- A step of the schedule alone keeps the invariant if it keeps all parameters. -/
theorem Consistent.of_schedule {s next : Scheduler} (h : s.Consistent)
    (hreg : next.registry = s.registry) (hsound : next.schedule.Sound)
    (hsame : s.schedule.SameEntries next.schedule) : next.Consistent where
  sound := hsound
  agrees := h.agrees.of_sameEntries (by rw [hreg]) hsame
  free := by rw [hreg]; exact h.free

theorem Consistent.enlisted {s : Scheduler} (h : s.Consistent) {e : RegistryEntry}
    (hnew : s.registry.contains e.info.id = false) (first : Instant) :
    (s.enlisted e first).Consistent where
  sound := h.sound.put (t := e.asleep first) (h.agrees.task?_eq_none hnew) rfl rfl rfl
  agrees := (h.agrees.enrolled hnew first).of_sameEntries rfl fun _ => rfl
  free := h.free

theorem Consistent.delisted {s : Scheduler} (h : s.Consistent) (id : TaskId) (e : RegistryEntry) :
    (s.delisted id e).Consistent := by
  obtain ⟨hschedule, hregistry⟩ := schedule_delisted s id e
  refine ⟨hschedule ▸ h.sound.withdraw id, ?_, ?_⟩
  · refine (h.agrees.withdraw id).struck.of_sameEntries (by rw [hregistry]; rfl) ?_
    rw [hschedule]
    exact fun _ => rfl
  · rw [hregistry]
    exact h.free

/-- A transition touches the schedule once at most. -/
theorem Consistent.moves {s : Scheduler} (h : s.Consistent) (m : Transition) :
    s.schedule.Moves (s.take m).schedule := by
  cases m with
  | register resolver now t =>
      simp only [Scheduler.take, register_eq h.free]
      cases hv : s.vet resolver now t with
      | error e => exact .stay
      | ok r => exact .put r.2 (h.agrees.task?_eq_none (contains_of_vet hv))
  | deregister id =>
      simp only [Scheduler.take, deregister_eq h.free]
      cases s.registry.find? id with
      | none => exact .stay
      | some e => exact (schedule_delisted s id e).1 ▸ .withdraw id
  | beginYield id now =>
      simp only [Scheduler.take, beginYield_eq h.free]
      split
      · cases he : s.schedule.endJob id now with
        | error e => exact .stay
        | ok r => exact (schedule_yielded s id r.1 r.2).1 ▸ .yields (Schedule.yields_of_endJob he)
      · exact .stay
  | release id => exact (schedule_release s id).1 ▸ .release id
  | evaluate => exact .evaluate
  | confirm id => exact .confirm id
  | stop =>
      rcases (schedule_stop s).1 with heq | heq
      · exact heq ▸ .stay
      · exact heq ▸ .stop

/-- What a transition does to the list of registered tasks: an accepted registration and a
deregistration change it. -/
theorem Consistent.entries_cases {s : Scheduler} (h : s.Consistent) (m : Transition) :
    (s.take m).registry.entries = s.registry.entries ∨
      (∃ resolver now t handle first, m = .register resolver now t ∧
        s.vet resolver now t = .ok (handle, first) ∧
        (s.take m).registry.entries = s.registry.entries ++ [⟨t, handle⟩]) ∨
      (∃ id, m = .deregister id ∧
        (s.take m).registry.entries = s.registry.entries.eraseP (·.info.id = id)) := by
  cases m with
  | register resolver now t =>
      simp only [Scheduler.take, register_eq h.free]
      cases hv : s.vet resolver now t with
      | error e => exact Or.inl rfl
      | ok r => exact Or.inr (Or.inl ⟨resolver, now, t, r.1, r.2, rfl, hv, rfl⟩)
  | deregister id =>
      simp only [Scheduler.take, deregister_eq h.free]
      cases s.registry.find? id with
      | none => exact Or.inl rfl
      | some e => exact Or.inr (Or.inr ⟨id, rfl, by simp only [(schedule_delisted s id e).2]⟩)
  | beginYield id now =>
      simp only [Scheduler.take, beginYield_eq h.free]
      split
      · cases he : s.schedule.endJob id now with
        | error e => exact Or.inl rfl
        | ok r => exact Or.inl (by simp only [(schedule_yielded s id r.1 r.2).2])
      · exact Or.inl rfl
  | release id => exact Or.inl (by simp only [Scheduler.take, (schedule_release s id).2])
  | evaluate => exact Or.inl rfl
  | confirm id => exact Or.inl rfl
  | stop => exact Or.inl (by simp only [Scheduler.take, (schedule_stop s).2])

/-- **A transition keeps the invariant.** -/
theorem Consistent.take {s : Scheduler} (h : s.Consistent) (m : Transition) :
    (s.take m).Consistent := by
  have hsound : (s.take m).schedule.Sound := h.sound.moves (h.moves m)
  cases m with
  | register resolver now t =>
      simp only [Scheduler.take, register_eq h.free]
      cases hv : s.vet resolver now t with
      | error e => exact h
      | ok r => exact h.enlisted (contains_of_vet hv) r.2
  | deregister id =>
      simp only [Scheduler.take, deregister_eq h.free]
      cases s.registry.find? id with
      | none => exact h
      | some e => exact h.delisted id e
  | beginYield id now =>
      simp only [Scheduler.take, beginYield_eq h.free] at hsound ⊢
      split
      · cases he : s.schedule.endJob id now with
        | error e => exact h
        | ok r =>
            obtain ⟨y, next⟩ := r
            obtain ⟨hschedule, hregistry⟩ := schedule_yielded s id y next
            have hy := Schedule.yields_of_endJob he
            refine h.of_schedule hregistry ?_ ?_ <;> rw [hschedule]
            · exact h.sound.yields hy
            · exact hy.sameEntries
      · exact h
  | release id =>
      obtain ⟨hschedule, hregistry⟩ := schedule_release s id
      refine h.of_schedule hregistry hsound ?_
      simp only [Scheduler.take, hschedule]
      exact Schedule.sameEntries_release s.schedule id
  | evaluate => exact h.of_schedule rfl hsound h.sound.sameEntries_evaluate
  | confirm id => exact h.of_schedule rfl hsound (h.sound.sameEntries_confirm id)
  | stop =>
      obtain ⟨hschedule, hregistry⟩ := schedule_stop s
      refine h.of_schedule hregistry hsound ?_
      rcases hschedule with hschedule | hschedule <;> simp only [Scheduler.take, hschedule] <;>
        exact fun _ => rfl

/-- A transition keeps the queue complete while numbers last. -/
theorem Kept.take {s : Scheduler} {n : ℕ} (h : s.Kept n) (hn : n + 1 < 2 ^ 63) (m : Transition) :
    (s.take m).Kept (n + 1) :=
  have hnext := h.consistent.take m
  ⟨hnext.sound, h.complete.moves h.sound hn (h.consistent.moves m), hnext.agrees, hnext.free⟩

/-- A run keeps the invariant. -/
theorem Consistent.after {s : Scheduler} (h : s.Consistent) (run : List Transition) :
    (s.after run).Consistent := by
  induction run generalizing s with
  | nil => exact h
  | cons m run ih => exact ih (h.take m)

/-- A run keeps the invariant while numbers last. -/
theorem Kept.after {s : Scheduler} {n : ℕ} (h : s.Kept n) (run : List Transition)
    (hn : n + run.length < 2 ^ 63) : (s.after run).Kept (n + run.length) := by
  induction run generalizing s n with
  | nil => exact h
  | cons m run ih =>
      simp only [List.length_cons] at hn ⊢
      have hrest := ih (h.take (by omega) m) (by omega)
      rw [show n + (run.length + 1) = n + 1 + run.length by omega]
      exact hrest

theorem new_eq_ok {c : Config} {s : Scheduler} (h : Scheduler.new c = .ok s) :
    c.Valid ∧ s = ofConfig c := by
  unfold Scheduler.new at h
  cases hc : c.fault? with
  | some f =>
      simp only [Config.check, hc] at h
      cases h
  | none =>
      have hcheck : c.check = .ok c := by simp only [Config.check, hc]
      rw [hcheck] at h
      cases h
      exact ⟨Config.check_eq_ok_iff.1 hcheck, rfl⟩

/-! ### Coherence -/

/-- What a client can rely on in every state. -/
structure Coherent (s : Scheduler) : Prop where
  /-- A task stands in the queue, by a period, exactly when its record is ready with that period. -/
  queued_iff : ∀ id p, (id, p) ∈ s.schedule.ready.row ↔
    ∃ t, s.schedule.task? id = some t ∧ t.state = .ready ∧ t.period = p
  /-- The periods ascend along the queue. -/
  ordered : s.schedule.ready.row.Ascending
  /-- No task stands in the queue twice. -/
  once : s.schedule.ready.ids.Nodup
  /-- At most one task is running. -/
  alone : s.schedule.runningCount ≤ 1
  /-- The slot's holder is running. -/
  holds : ∀ id, s.schedule.current = some id →
    ∃ t, s.schedule.task? id = some t ∧ t.state = .running
  /-- Before the end of scheduling, a running task holds the slot. -/
  held : s.schedule.stopped = false →
    ∀ id t, s.schedule.task? id = some t → t.state = .running → s.schedule.current = some id
  /-- A task that sleeps or runs has no job that waits to be dispatched. -/
  pending : ∀ id t, s.schedule.task? id = some t → t.state ≠ .ready → t.jobPending = false
  /-- Only a running task has a confirmed grant. -/
  resumed : ∀ id t, s.schedule.task? id = some t → t.resumed = true → t.state = .running
  /-- The tasks with records are the registered tasks. -/
  listed : s.schedule.tasks.keys.Perm s.registry.ids
  /-- No task is registered twice. -/
  distinct : s.registry.ids.Nodup
  /-- Every record has the parameters of its registration. -/
  entries : ∀ e ∈ s.registry.entries, ∃ t, s.schedule.task? e.info.id = some t ∧
    t.period = e.info.period ∧ t.budget = e.info.budget ∧ t.handle = e.handle

theorem Kept.listed {s : Scheduler} {n : ℕ} (h : s.Kept n) :
    s.schedule.tasks.keys.Perm s.registry.ids := by
  refine (List.perm_ext_iff_of_nodup s.schedule.tasks.distinct h.agrees.distinct).2 fun id => ?_
  have hmap := h.agrees.entries id (by simp)
  rw [← Registry.contains_iff]
  refine Table.mem_keys_iff.trans ⟨fun ⟨t, ht⟩ => ?_, fun hc => ?_⟩
  · exact Registry.contains_of_find? (h.agrees.find?_eq ht)
  · obtain ⟨e, he⟩ := Registry.find?_of_contains hc
    rw [he] at hmap
    obtain ⟨t, ht, -⟩ := Option.map_eq_some_iff.1 hmap
    exact ⟨t, ht⟩

/-- Records that are all those of one task are at most one. -/
theorem runningCount_le_one {s : Schedule} (h : s.Sound) : s.runningCount ≤ 1 := by
  have hcount : s.runningCount =
      (s.tasks.pairs.filter fun x => decide (x.2.state = .running)).length := by
    simp only [Schedule.runningCount, Table.values, List.filter_map, List.length_map]
    rfl
  rw [hcount]
  have hnodup : ((s.tasks.pairs.filter fun x => decide (x.2.state = .running)).map
      Prod.fst).Nodup := s.tasks.distinct.sublist (List.filter_sublist.map Prod.fst)
  have hrunning : ∀ x ∈ s.tasks.pairs.filter fun x => decide (x.2.state = .running),
      s.task? x.1 = some x.2 ∧ x.2.state = .running := by
    intro x hx
    obtain ⟨hmem, hrun⟩ := List.mem_filter.1 hx
    exact ⟨Table.get?_of_mem_pairs hmem, by simpa using hrun⟩
  match hl : s.tasks.pairs.filter fun x => decide (x.2.state = .running) with
  | [] => simp [hl]
  | [x] => simp [hl]
  | x :: y :: rest =>
      rw [hl] at hnodup hrunning
      obtain ⟨hx, hrx⟩ := hrunning x (by simp)
      obtain ⟨hy, hry⟩ := hrunning y (by simp)
      have heq := h.alone x.1 y.1 x.2 y.2 hx hy hrx hry
      simp [heq] at hnodup

theorem Kept.coherent {s : Scheduler} {n : ℕ} (h : s.Kept n) : s.Coherent where
  queued_iff := by
    intro id p
    constructor
    · intro hm
      exact h.sound.queued (id, p) hm
    · rintro ⟨t, ht, hready, rfl⟩
      exact h.complete.ready id t ht hready
  ordered := h.sound.order.ascending
  once := h.sound.order.once
  alone := runningCount_le_one h.sound
  holds := h.sound.holds
  held := h.sound.held
  pending := by
    intro id t ht hstate
    cases hp : t.jobPending with
    | false => rfl
    | true => exact absurd (h.sound.pending id t ht hp) hstate
  resumed := h.sound.resumed
  listed := h.listed
  distinct := h.agrees.distinct
  entries := by
    intro e he
    have hkey : ∃ t, s.schedule.tasks.get? e.info.id = some t :=
      Table.mem_keys_iff.1 (h.listed.mem_iff.2 (List.mem_map_of_mem he))
    obtain ⟨t, ht⟩ := hkey
    -- The entry found under a number is the only one with that number.
    have hfind := h.agrees.find?_eq ht
    have hte : t.entry = e :=
      List.inj_on_of_nodup_map h.agrees.distinct (List.mem_of_find?_eq_some hfind) he
        (Registry.id_of_find? hfind)
    subst hte
    exact ⟨t, ht, rfl, rfl, rfl⟩

/-- **Every state is coherent**, whatever happened in fewer than `2 ^ 63` transitions. -/
theorem coherent_after {c : Config} {s : Scheduler} (hs : Scheduler.new c = .ok s)
    (run : List Transition) (hrun : run.length < 2 ^ 63) : (s.after run).Coherent := by
  obtain ⟨-, rfl⟩ := new_eq_ok hs
  exact ((kept_ofConfig c).after run (by omega)).coherent

/-- A task is registered and granted the slot, and loses it to one with a shorter period. -/
def overtaking : List Transition :=
  let resolver : Resolver := fun id => some ⟨id.number⟩
  [.register resolver Instant.start ⟨⟨1⟩, Duration.ofMillis 100, Duration.ofMillis 1⟩,
    .register resolver Instant.start ⟨⟨2⟩, Duration.ofMillis 50, Duration.ofMillis 1⟩,
    .release ⟨1⟩, .evaluate, .confirm ⟨1⟩, .release ⟨2⟩, .evaluate]

theorem coherent_after_overtaking :
    Scheduler.new Config.default = .ok (ofConfig Config.default) ∧ overtaking.length < 2 ^ 63 ∧
      ((ofConfig Config.default).after overtaking).schedule.current = some ⟨2⟩ ∧
      ((ofConfig Config.default).after overtaking).schedule.ready.ids = [⟨1⟩] ∧
      ((ofConfig Config.default).after overtaking).Coherent :=
  ⟨rfl, by decide, by decide, by decide,
    coherent_after (c := Config.default) rfl overtaking (by decide)⟩

end Scheduler

end RateMonotonic
