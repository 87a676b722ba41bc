/-
**Registry and schedule list the same tasks.**

Three sections change who is listed: a task is enrolled in both at once, withdrawn from the
schedule, and struck off the registry.  Between the last two the task is registered without a
record, and the registry is held so that nobody can see it.  Every other section leaves the
registry alone and every record with the parameters of its registration.

Main definitions:
* `Task.entry` — a record as the registry would list it;
* `Schedule.SameEntries` — two schedules with the same tasks, up to where these stand;
* `Schedule.Moves` — what can happen to a schedule at once;
* `Scheduler.Matches` — registry and schedule list the same tasks, up to one that is leaving.

Main results:
* `Scheduler.Matches.enrolled`, `Scheduler.Matches.withdraw`, `Scheduler.Matches.struck` — the
  three sections;
* `Scheduler.register_eq`, `Scheduler.deregister_eq`, `Scheduler.beginYield_eq` — **an operation on
  a free registry is refused without a trace, or does all of its sections**.
-/

import RateMonotonic.Proofs.ScheduleInvariant
import RateMonotonic.Scheduler.Operation

set_option relaxedAutoImplicit false
set_option autoImplicit false

namespace RateMonotonic

/-- A record as the registry would list it. -/
def Task.entry (t : Task) : RegistryEntry := ⟨t.info, t.handle⟩

/-- The record of a newly registered task, which sleeps until its first release. -/
def RegistryEntry.asleep (e : RegistryEntry) (first : Instant) : Task :=
  Task.sleepingUntil e.info.id e.handle e.info.period e.info.budget first

@[simp] theorem Task.entry_grant (t : Task) : t.grant.entry = t.entry := by
  simp [Task.entry]

/-! ### The registry as a map -/

namespace Registry

theorem id_of_find? {r : Registry} {id : TaskId} {e : RegistryEntry} (h : r.find? id = some e) :
    e.info.id = id := by
  simpa using List.find?_some h

theorem contains_of_find? {r : Registry} {id : TaskId} {e : RegistryEntry}
    (h : r.find? id = some e) : r.contains id = true := by
  cases hc : r.contains id with
  | true => rfl
  | false =>
      rw [find?_eq_none_iff.2 hc] at h
      cases h

theorem find?_of_contains {r : Registry} {id : TaskId} (h : r.contains id = true) :
    ∃ e, r.find? id = some e := by
  cases hf : r.find? id with
  | some e => exact ⟨e, rfl⟩
  | none =>
      rw [find?_eq_none_iff.1 hf] at h
      cases h

theorem insert_eq_ok {r next : Registry} {e : RegistryEntry} (h : r.insert e = .ok next) :
    r.contains e.info.id = false ∧ next = { r with entries := r.entries ++ [e] } := by
  unfold insert at h
  split at h
  · cases h
  · next hc =>
      cases h
      exact ⟨by simpa using hc, rfl⟩

theorem remove_eq_ok {r next : Registry} {id : TaskId} {e : RegistryEntry}
    (h : r.remove id = .ok (e, next)) :
    r.find? id = some e ∧
      next = { r with entries := r.entries.eraseP (·.info.id = id) } := by
  unfold remove at h
  split at h
  · cases h
  · next hf =>
      cases h
      exact ⟨hf, rfl⟩

theorem remove_of_contains {r : Registry} {id : TaskId} (h : r.contains id = true) :
    ∃ e, r.find? id = some e ∧
      r.remove id = .ok (e, { r with entries := r.entries.eraseP (·.info.id = id) }) := by
  obtain ⟨e, he⟩ := find?_of_contains h
  exact ⟨e, he, by simp [remove, he]⟩

theorem find?_append (r : Registry) (e : RegistryEntry) (held : Bool) (id : TaskId)
    (hnew : r.contains e.info.id = false) :
    (⟨r.entries ++ [e], held⟩ : Registry).find? id =
      if e.info.id = id then some e else r.find? id := by
  have hnone := find?_eq_none_iff.2 hnew
  simp only [find?] at hnone ⊢
  rw [List.find?_append]
  split
  · next hid =>
      subst hid
      simp [hnone]
  · next hid => simp [hid]

theorem find?_eraseP (r : Registry) (held : Bool) (id j : TaskId) (h : r.ids.Nodup) :
    (⟨r.entries.eraseP (·.info.id = id), held⟩ : Registry).find? j =
      if id = j then none else r.find? j := by
  obtain ⟨l, b⟩ := r
  simp only [find?, ids] at h ⊢
  induction l with
  | nil => simp
  | cons e l ih =>
      obtain ⟨he, hl⟩ := List.nodup_cons.1 h
      by_cases hid : e.info.id = id
      · subst hid
        by_cases hj : e.info.id = j
        · subst hj
          have hnone : l.find? (·.info.id = e.info.id) = none := by
            rw [List.find?_eq_none]
            intro f hf heq
            exact he (List.mem_map.2 ⟨f, hf, by simpa using heq⟩)
          simp [hnone]
        · simp [hj]
      · rw [List.eraseP_cons_of_neg (by simp [hid])]
        by_cases hj : e.info.id = j
        · have hij : ¬ id = j := fun h => hid (hj.trans h.symm)
          simp [hj, hij]
        · simpa [hj] using ih hl

/-- The first task of a number is the only one. -/
theorem entries_eraseP {r : Registry} (h : r.ids.Nodup) (id : TaskId) :
    r.entries.eraseP (·.info.id = id) = r.entries.filter (·.info.id ≠ id) := by
  obtain ⟨l, _⟩ := r
  simp only [ids] at h ⊢
  induction l with
  | nil => rfl
  | cons e l ih =>
      obtain ⟨he, hl⟩ := List.nodup_cons.1 h
      by_cases hid : e.info.id = id
      · have hothers : ∀ f ∈ l, decide (f.info.id ≠ id) = true := by
          intro f hf
          refine decide_eq_true fun heq => he ?_
          exact List.mem_map.2 ⟨f, hf, heq.trans hid.symm⟩
        rw [List.eraseP_cons_of_pos (by simp [hid]), List.filter_cons_of_neg (by simp [hid])]
        exact (List.filter_eq_self.2 hothers).symm
      · rw [List.eraseP_cons_of_neg (by simp [hid]), List.filter_cons_of_pos (by simp [hid]), ih hl]

theorem contains_eraseP {r : Registry} (h : r.ids.Nodup) (id j : TaskId) (held : Bool) :
    (⟨r.entries.eraseP (·.info.id = id), held⟩ : Registry).contains j =
      (decide (id ≠ j) && r.contains j) := by
  rw [Bool.eq_iff_iff, Bool.and_eq_true]
  simp only [contains, entries_eraseP h, List.any_filter]
  simp only [List.any_eq_true, Bool.and_eq_true, decide_eq_true_iff]
  constructor
  · rintro ⟨e, he, hne, rfl⟩
    exact ⟨Ne.symm hne, e, he, rfl⟩
  · rintro ⟨hne, e, he, rfl⟩
    exact ⟨e, he, Ne.symm hne, rfl⟩

/-- Taking a new task out again gives back the list. -/
theorem eraseP_append {r : Registry} {e : RegistryEntry} (hnew : r.contains e.info.id = false) :
    (r.entries ++ [e]).eraseP (·.info.id = e.info.id) = r.entries := by
  have hothers : ∀ f ∈ r.entries, ¬ decide (f.info.id = e.info.id) = true := by
    simpa [contains] using hnew
  rw [List.eraseP_append_right _ hothers, List.eraseP_cons_of_pos (by simp), List.append_nil]

theorem ids_eraseP_nodup (r : Registry) (held : Bool) (id : TaskId) (h : r.ids.Nodup) :
    (⟨r.entries.eraseP (·.info.id = id), held⟩ : Registry).ids.Nodup :=
  h.sublist (List.Sublist.map (fun e : RegistryEntry => e.info.id) List.eraseP_sublist)

theorem ids_append_nodup (r : Registry) (e : RegistryEntry) (held : Bool) (h : r.ids.Nodup)
    (hnew : r.contains e.info.id = false) : (⟨r.entries ++ [e], held⟩ : Registry).ids.Nodup := by
  have hnot : e.info.id ∉ r.ids := by
    rw [← contains_iff, hnew]
    simp
  simp only [ids] at h hnot ⊢
  rw [List.map_append, List.nodup_append]
  refine ⟨h, by simp, fun a ha b hb => ?_⟩
  rintro rfl
  simp only [List.map_cons, List.map_nil, List.mem_singleton] at hb
  exact hnot (hb ▸ ha)

end Registry

/-! ### What steps of the schedule leave alone -/

namespace Schedule

/-- Two schedules have the same tasks, up to where these stand. -/
def SameEntries (s next : Schedule) : Prop :=
  ∀ id, (next.task? id).map Task.entry = (s.task? id).map Task.entry

/-- Storing a record with the parameters of the old one. -/
theorem SameEntries.store {s : Schedule} {id : TaskId} {t u : Task} {q : ReadyQueue}
    {c : Option TaskId} (ht : s.task? id = some t) (hu : u.entry = t.entry) :
    s.SameEntries { s with tasks := s.tasks.insert id u, ready := q, current := c } := by
  intro j
  rw [task?_insert]
  split
  · next hj =>
      subst hj
      simp [ht, hu]
  · rfl

theorem Sound.sameEntries_evaluate {s : Schedule} (h : s.Sound) :
    s.SameEntries s.evaluate.2 := by
  have hcases := h.evaluates
  generalize s.evaluate.1 = d at hcases
  generalize s.evaluate.2 = next at hcases
  cases hcases with
  | idle _ => exact fun _ => rfl
  | keep _ _ _ _ _ => exact fun _ => rfl
  | grant _ _ _ task _ _ => exact SameEntries.store task (Task.entry_grant _)
  | preempt _ _ _ task _ _ headTask _ _ =>
      intro id
      rw [task?_displace]
      split
      · next hid =>
          subst hid
          simp [headTask]
      · split
        · next hid =>
            subst hid
            simp [task, Task.entry]
        · rfl

theorem sameEntries_release (s : Schedule) (id : TaskId) : s.SameEntries (s.release id).2 := by
  rcases release_cases s id with ⟨t, ht, -, heq⟩ | ⟨-, heq⟩
  · rw [heq]
    exact SameEntries.store (u := t.release) ht rfl
  · rw [heq]
    exact fun _ => rfl

theorem Sound.sameEntries_confirm {s : Schedule} (h : s.Sound) (id : TaskId) :
    s.SameEntries (s.confirm id).2 := by
  rcases h.confirm_cases id with ⟨t, -, -, ht, -, heq⟩ | ⟨-, heq⟩
  · rw [heq]
    exact SameEntries.store (u := t.resume) ht rfl
  · rw [heq]
    exact fun _ => rfl

theorem Yields.sameEntries {s next : Schedule} {id : TaskId} {now : Instant} {y : YieldResult}
    (h : s.Yields id now y next) : s.SameEntries next := by
  cases h with
  | nothing _ _ => exact fun _ => rfl
  | @sleep t _ task _ _ => exact SameEntries.store (u := t.sleep) task rfl
  | @requeue t task _ _ => exact SameEntries.store (u := t.requeue) task rfl

/-! ### One step of the schedule -/

/-- What can happen to a schedule at once. -/
inductive Moves (s : Schedule) : Schedule → Prop where
  | stay : Moves s s
  | put {e : RegistryEntry} (first : Instant) (new : s.task? e.info.id = none) :
      Moves s (s.put (e.asleep first))
  | withdraw (id : TaskId) : Moves s (s.withdraw id).2
  | yields {id : TaskId} {now : Instant} {y : YieldResult} {next : Schedule}
      (ends : s.Yields id now y next) : Moves s next
  | release (id : TaskId) : Moves s (s.release id).2
  | evaluate : Moves s s.evaluate.2
  | confirm (id : TaskId) : Moves s (s.confirm id).2
  | stop : Moves s s.stop.2

/-- Whatever happens keeps a schedule sound. -/
theorem Sound.moves {s next : Schedule} (h : s.Sound) (hm : s.Moves next) : next.Sound := by
  cases hm with
  | stay => exact h
  | @put e first new => exact h.put (t := e.asleep first) new rfl rfl rfl
  | withdraw id => exact h.withdraw id
  | yields ends => exact h.yields ends
  | release id => exact h.release id
  | evaluate => exact h.evaluate
  | confirm id => exact h.confirm id
  | stop => exact h.stop

/-- Whatever happens keeps the queue of a sound schedule complete while numbers last. -/
theorem Complete.moves {s next : Schedule} {n : ℕ} (h : s.Complete n) (hs : s.Sound)
    (hn : n + 1 < 2 ^ 63) (hm : s.Moves next) : next.Complete (n + 1) := by
  have hmono := h.mono (Nat.le_succ n)
  cases hm with
  | stay => exact hmono
  | @put e first _ => exact hmono.put (t := e.asleep first) rfl
  | withdraw id => exact hmono.withdraw id
  | yields ends => exact h.yields hn ends
  | release id => exact h.release hs hn id
  | evaluate => exact h.evaluate hs (Nat.lt_of_succ_lt hn)
  | confirm id => exact hmono.confirm hs id
  | stop => exact hmono.stop

end Schedule

/-! ### Agreement -/

namespace Scheduler

/-- Registry and schedule list the same tasks with the same parameters.  A task that is leaving may
be registered still, but has no record any more. -/
structure Matches (leaving : Option TaskId) (s : Scheduler) : Prop where
  /-- No task is registered twice. -/
  distinct : s.registry.ids.Nodup
  /-- Every record is that of a registered task, and the other way round. -/
  entries : ∀ id, leaving ≠ some id →
    (s.schedule.task? id).map Task.entry = s.registry.find? id
  /-- A task that is leaving has no record. -/
  gone : ∀ id, leaving = some id → s.schedule.task? id = none

/-- What leaves the registry and the parameters of all records alone keeps them in agreement. -/
theorem Matches.of_sameEntries {s next : Scheduler} {leaving : Option TaskId}
    (h : s.Matches leaving) (hreg : next.registry.entries = s.registry.entries)
    (hsame : s.schedule.SameEntries next.schedule) : next.Matches leaving where
  distinct := by
    have := h.distinct
    simp only [Registry.ids, hreg] at this ⊢
    exact this
  entries := by
    intro id hid
    have hfind : next.registry.find? id = s.registry.find? id := by
      simp only [Registry.find?, hreg]
    rw [hsame id, hfind]
    exact h.entries id hid
  gone := by
    intro id hid
    have hmap := hsame id
    rw [h.gone id hid] at hmap
    simpa using hmap

/-- A task that is not registered has no record. -/
theorem Matches.task?_eq_none {s : Scheduler} {leaving : Option TaskId} (h : s.Matches leaving)
    {id : TaskId} (hnew : s.registry.contains id = false) : s.schedule.task? id = none := by
  by_cases hid : leaving = some id
  · exact h.gone id hid
  · have hmap := h.entries id hid
    rw [Registry.find?_eq_none_iff.2 hnew] at hmap
    simpa using hmap

/-- The entry of a task with a record. -/
theorem Matches.find?_eq {s : Scheduler} {leaving : Option TaskId} (h : s.Matches leaving)
    {id : TaskId} {t : Task} (ht : s.schedule.task? id = some t) :
    s.registry.find? id = some t.entry := by
  have hid : leaving ≠ some id := by
    intro hl
    rw [h.gone id hl] at ht
    cases ht
  rw [← h.entries id hid, ht]
  rfl

/-- A registered task has a record while nobody leaves. -/
theorem Matches.exists_task? {s : Scheduler} (h : s.Matches none) {id : TaskId}
    (hc : s.registry.contains id = true) : ∃ t, s.schedule.task? id = some t := by
  obtain ⟨e, he⟩ := Registry.find?_of_contains hc
  obtain ⟨t, ht, -⟩ := Option.map_eq_some_iff.1 ((h.entries id (by simp)).trans he)
  exact ⟨t, ht⟩

/-- The scheduler after a task has been taken into registry and schedule. -/
def enrolled (s : Scheduler) (e : RegistryEntry) (first : Instant) : Scheduler :=
  { s with registry := { s.registry with entries := s.registry.entries ++ [e] } }.withSchedule
    (s.schedule.put (e.asleep first))

/-- The scheduler after a task has been taken out of the registry. -/
def struck (s : Scheduler) (id : TaskId) : Scheduler :=
  { s with registry := ⟨s.registry.entries.eraseP (·.info.id = id), false⟩ }

theorem enroll_eq_ok {s next : Scheduler} {e : RegistryEntry} {first : Instant}
    (h : s.enroll e first = .ok next) :
    s.registry.contains e.info.id = false ∧ next = s.enrolled e first := by
  unfold Scheduler.enroll at h
  split at h
  · cases h
  · next registry hins =>
      cases h
      obtain ⟨hnew, rfl⟩ := Registry.insert_eq_ok hins
      exact ⟨hnew, rfl⟩

theorem strike_eq_ok {s next : Scheduler} {id : TaskId} {e : RegistryEntry}
    (h : s.strike id = .ok (e, next)) : s.registry.find? id = some e ∧ next = s.struck id := by
  unfold Scheduler.strike at h
  split at h
  · cases h
  · next hrem =>
      cases h
      obtain ⟨hfind, rfl⟩ := Registry.remove_eq_ok hrem
      exact ⟨hfind, rfl⟩

theorem Matches.enrolled {s : Scheduler} (h : s.Matches none) {e : RegistryEntry}
    (hnew : s.registry.contains e.info.id = false) (first : Instant) :
    (s.enrolled e first).Matches none := by
  refine ⟨Registry.ids_append_nodup _ _ _ h.distinct hnew, fun id _ => ?_, by simp⟩
  have hput : (s.schedule.put (e.asleep first)).task? id =
      if e.info.id = id then some (e.asleep first) else s.schedule.task? id :=
    Schedule.task?_put s.schedule (e.asleep first) id
  refine (congrArg (Option.map Task.entry) hput).trans ?_
  refine Eq.trans ?_ (Registry.find?_append _ _ _ id hnew).symm
  split
  · rfl
  · exact h.entries id (by simp)

theorem Matches.withdraw {s : Scheduler} (h : s.Matches none) (id : TaskId) :
    (s.withdraw id).2.Matches (some id) where
  distinct := h.distinct
  entries := by
    intro j hj
    have hget := Schedule.task?_withdraw s.schedule id j
    rw [if_neg fun hid => hj (congrArg some hid)] at hget
    refine (congrArg (Option.map Task.entry) hget).trans ?_
    exact h.entries j (by simp)
  gone := by
    intro j hj
    cases hj
    exact (Schedule.task?_withdraw s.schedule id id).trans (if_pos rfl)

theorem Matches.struck {s : Scheduler} {id : TaskId} (h : s.Matches (some id)) :
    (s.struck id).Matches none := by
  refine ⟨Registry.ids_eraseP_nodup _ _ _ h.distinct, fun j _ => ?_, by simp⟩
  refine Eq.trans ?_ (Registry.find?_eraseP _ _ id j h.distinct).symm
  split
  · next hid =>
      subst hid
      exact congrArg (Option.map Task.entry) (h.gone id rfl)
  · next hid => exact h.entries j fun hj => hid (Option.some.inj hj)

/-! ### Whole operations on a free registry -/

/-- Handle and first release of a task that may be registered.  Only the configuration and the
registry are asked. -/
def vet (s : Scheduler) (resolver : Resolver) (now : Instant) (t : TaskInfo) :
    Except SchedError (ExecHandle × Instant) :=
  match s.checkTiming now t with
  | .error e => .error e
  | .ok first =>
      match s.checkCandidate t with
      | .error e => .error e
      | .ok () =>
          match resolve resolver t.id with
          | .error e => .error e
          | .ok handle => .ok (handle, first)

/-- The scheduler after a task has been registered. -/
def enlisted (s : Scheduler) (e : RegistryEntry) (first : Instant) : Scheduler :=
  (s.enrolled e first).arm e.info.id first

/-- The scheduler after a task has been deregistered. -/
def delisted (s : Scheduler) (id : TaskId) (e : RegistryEntry) : Scheduler :=
  let outside : Scheduler :=
    { (s.cancel id).withSchedule (s.schedule.withdraw id).2 with
      registry := { s.registry with entries := s.registry.entries.eraseP (·.info.id = id) } }
  (if s.schedule.holdsSlot id then outside.reset e.handle else outside).post (.deregistered id)

/-- The scheduler after a task has yielded. -/
def yielded (s : Scheduler) (id : TaskId) (y : YieldResult) (next : Schedule) : Scheduler :=
  let outside := (s.withSchedule next).armAt id y.armAt
  let demoted := if y.freedSlot then outside.reset y.handle else outside
  if endedJob y.outcome then demoted.post (.yielded id) else demoted

/-- A candidate's timing can be served when neither time is empty and the first two boundaries are
on the clock. -/
theorem checkTiming_eq_ok_iff {s : Scheduler} {now first : Instant} {t : TaskInfo} :
    s.checkTiming now t = .ok first ↔
      t.period.isZero = false ∧ t.budget.isZero = false ∧
        s.firstRelease? now t.period = some first := by
  unfold checkTiming
  cases t.period.isZero <;> cases t.budget.isZero <;> cases s.firstRelease? now t.period <;> simp

/-- A timing that cannot be served is refused as such. -/
theorem checkTiming_eq_error {s : Scheduler} {now : Instant} {t : TaskInfo} {e : SchedError}
    (h : s.checkTiming now t = .error e) : e = .invalidTiming t.period t.budget := by
  unfold checkTiming at h
  split at h
  · cases h
    rfl
  · split at h
    · cases h
    · cases h
      rfl

theorem checkCandidate_eq_ok {s : Scheduler} {t : TaskInfo} (h : s.checkCandidate t = .ok ()) :
    s.registry.contains t.id = false := by
  unfold checkCandidate at h
  split at h
  · cases h
  · next hc => simpa using hc

/-- A registration is accepted for a timing that can be served, a candidate that may come, and a
task that is alive. -/
theorem vet_eq_ok_iff {s : Scheduler} {resolver : Resolver} {now first : Instant} {t : TaskInfo}
    {handle : ExecHandle} :
    s.vet resolver now t = .ok (handle, first) ↔
      s.checkTiming now t = .ok first ∧ s.checkCandidate t = .ok () ∧
        resolver t.id = some handle := by
  unfold vet resolve
  cases s.checkTiming now t with
  | error e => simp
  | ok f =>
      cases s.checkCandidate t with
      | error e => simp
      | ok _ => cases resolver t.id <;> simp [and_comm]

theorem contains_of_vet {s : Scheduler} {resolver : Resolver} {now first : Instant} {t : TaskInfo}
    {handle : ExecHandle} (h : s.vet resolver now t = .ok (handle, first)) :
    s.registry.contains t.id = false :=
  checkCandidate_eq_ok (vet_eq_ok_iff.1 h).2.1

/-- The scheduler with its registry held. -/
def holding (s : Scheduler) : Scheduler :=
  { s with registry := { s.registry with held := true } }

/-- Taking hold of a free registry and letting go of it again. -/
theorem leave_holding {s : Scheduler} (h : s.registry.held = false) : s.holding.leave = s := by
  obtain ⟨_, ⟨entries, held⟩, _, _, _, _, _, _, _⟩ := s
  simp only at h
  subst h
  rfl

theorem enter_eq {s : Scheduler} (h : s.registry.held = false) : s.enter = .ok s.holding :=
  enter_of_free h

theorem enterFor_eq {s : Scheduler} (h : s.registry.held = false) (id : TaskId) :
    s.enterFor id =
      if s.registry.contains id then .ok s.holding else .error (.notFound id) := by
  simp only [enterFor, enter_eq h]
  rfl

/-- **A registration** is refused without a trace, or does everything. -/
theorem register_eq {s : Scheduler} (h : s.registry.held = false) (resolver : Resolver)
    (now : Instant) (t : TaskInfo) :
    s.register resolver now t =
      match s.vet resolver now t with
      | .error e => (.error e, s)
      | .ok (handle, first) => (.ok (.registered t.id), s.enlisted ⟨t, handle⟩ first) := by
  have hcand : s.holding.checkCandidate t = s.checkCandidate t := rfl
  simp only [register, vet, enter_eq h, hcand]
  cases s.checkTiming now t with
  | error e => rfl
  | ok first =>
      cases hc : s.checkCandidate t with
      | error e => simp only [leave_holding h]
      | ok _ =>
          cases resolve resolver t.id with
          | error e => simp only [leave_holding h]
          | ok handle =>
              -- The number was found to be free, so the task is enrolled.
              have hnew : s.holding.registry.contains t.id = false := checkCandidate_eq_ok hc
              simp only [enroll, Registry.insert, hnew, Bool.false_eq_true, if_false]
              congr 1
              exact leave_holding (s := s.enlisted ⟨t, handle⟩ first) h

/-- **A deregistration** is refused without a trace, or does everything. -/
theorem deregister_eq {s : Scheduler} (h : s.registry.held = false) (id : TaskId) :
    s.deregister id =
      match s.registry.find? id with
      | none => (.error (.notFound id), s)
      | some e => (.ok (.deregistered id), s.delisted id e) := by
  simp only [deregister, enterFor_eq h]
  cases hf : s.registry.find? id with
  | none => simp [Registry.find?_eq_none_iff.1 hf]
  | some e =>
      have hrem : ((s.holding.cancel id).withdraw id).2.registry.remove id =
          .ok (e, { s.registry with
            entries := s.registry.entries.eraseP (·.info.id = id), held := true }) := by
        have hf' : ((s.holding.cancel id).withdraw id).2.registry.find? id = some e := hf
        simp only [Registry.remove, hf']
        rfl
      simp only [Registry.contains_of_find? hf, if_true, strike, hrem]
      obtain ⟨_, ⟨entries, held⟩, _, _, _, _, _, _, _⟩ := s
      simp only at h
      subst h
      rfl

/-- **A yield** is refused without a trace, or does everything. -/
theorem beginYield_eq {s : Scheduler} (h : s.registry.held = false) (now : Instant) (id : TaskId) :
    s.beginYield now id =
      if s.registry.contains id then
        match s.schedule.endJob id now with
        | .error e => (.error e, s)
        | .ok (y, next) => (.ok (.yielded id y.outcome), s.yielded id y next)
      else (.error (.notFound id), s) := by
  have hend : s.holding.schedule = s.schedule := rfl
  simp only [beginYield, enterFor_eq h]
  cases s.registry.contains id with
  | false => simp
  | true =>
      simp only [if_true, endJob, hend]
      cases s.schedule.endJob id now with
      | error e => simp only [leave_holding h]
      | ok r =>
          obtain ⟨y, next⟩ := r
          have hleave : ((s.holding.withSchedule next).armAt id y.armAt).leave =
              (s.withSchedule next).armAt id y.armAt := by
            cases y.armAt with
            | none => exact leave_holding (s := s.withSchedule next) h
            | some deadline => exact leave_holding (s := (s.withSchedule next).arm id deadline) h
          simp only [hleave, yielded]

end Scheduler

end RateMonotonic
