/-
**No job is lost or doubled, and boundaries never drift.**

In a run, a registration starts a count: jobs are released by timers and by late yields, and
start when the slot is granted while a job is pending.  At any time since, at most one released job
has not started, and the next boundary is as many periods after the first release as jobs have
started, whatever happened when.

Main definitions:
* `Scheduler.releases`, `Scheduler.starts` — the transitions that release a task's job, and that start
  one;
* `Scheduler.Registration` — a task has been registered since a transition of a run;
* `Scheduler.Punctual` — what counts and record of a task have to do with each other.

Main results:
* `Scheduler.Consistent.goes` — a transition releases a task's job, starts it, or leaves it alone;
* `Scheduler.Consistent.exists_registration` — every registered task has been registered by some
  transition;
* `Scheduler.punctual_after` — **every registered task is punctual**, in every run.
-/

import RateMonotonic.Proofs.Boundaries
import RateMonotonic.Proofs.Runs

set_option relaxedAutoImplicit false
set_option autoImplicit false

namespace RateMonotonic

namespace Scheduler

/-! ### Releases and starts in a run -/

/-- Whether a transition releases a job of a task: its timer's release is not ignored, or its yield
finds the next job to be due. -/
def releases (s : Scheduler) (id : TaskId) : Transition → Bool
  | .release j => decide (j = id) && decide ((s.releaseTask j).1 = .released)
  | .beginYield j now =>
      decide (j = id) && decide ((s.beginYield now j).1 = .ok (.yielded j .requeued))
  | _ => false

/-- Whether a transition grants the slot to a task whose job is pending. -/
def starts (s : Scheduler) (id : TaskId) : Transition → Bool
  | .evaluate => s.schedule.starts id
  | _ => false

/-- **A transition releases a task's job, starts it, or leaves it alone.** -/
theorem Consistent.goes {s : Scheduler} (h : s.Consistent) (m : Transition) {id : TaskId}
    {t u : Task} (ht : s.schedule.task? id = some t) (hu : (s.take m).schedule.task? id = some u) :
    t.Goes (s.releases id m) (s.starts id m) u := by
  have hsame : (s.take m).schedule.tasks = s.schedule.tasks → t.Goes false false u := by
    intro heq
    have htask : (s.take m).schedule.task? id = s.schedule.task? id := by
      simp only [Schedule.task?, heq]
    rw [htask, ht] at hu
    cases hu
    exact .refl t
  cases m with
  | register resolver now v =>
      have htake : s.take (.register resolver now v) = (s.register resolver now v).2 := rfl
      rw [register_eq h.free] at htake
      cases hv : s.vet resolver now v with
      | error e => exact hsame (by rw [htake, hv])
      | ok r =>
          rw [htake, hv] at hu
          have hnone := h.agrees.task?_eq_none (contains_of_vet hv)
          exact Schedule.goes_put (v := RegistryEntry.asleep ⟨v, r.1⟩ r.2) hnone ht hu
  | deregister j =>
      have htake : s.take (.deregister j) = (s.deregister j).2 := rfl
      rw [deregister_eq h.free] at htake
      cases hfind : s.registry.find? j with
      | none => exact hsame (by rw [htake, hfind])
      | some e =>
          rw [htake, hfind] at hu
          simp only [(schedule_delisted s j e).1] at hu
          exact Schedule.goes_withdraw ht hu
  | beginYield j now =>
      have htake : s.take (.beginYield j now) = (s.beginYield now j).2 := rfl
      rw [beginYield_eq h.free] at htake
      simp only [releases, starts, beginYield_eq h.free]
      cases hc : s.registry.contains j with
      | false => simpa [hc] using hsame (by rw [htake, hc]; rfl)
      | true =>
          cases he : s.schedule.endJob j now with
          | error e => simpa [hc, he] using hsame (by rw [htake, hc, he]; rfl)
          | ok r =>
              obtain ⟨y, next⟩ := r
              rw [htake, hc, he] at hu
              simp only [if_true, (schedule_yielded s j y next).1] at hu ⊢
              simpa using (Schedule.yields_of_endJob he).goes h.sound ht hu
  | release j =>
      simp only [Scheduler.take, (schedule_release s j).1] at hu
      exact h.sound.goes_release ht hu
  | evaluate => exact h.sound.goes_evaluate ht hu
  | confirm j => exact h.sound.goes_confirm ht hu
  | stop =>
      refine hsame ?_
      rcases (schedule_stop s).1 with heq | heq
      · exact congrArg Schedule.tasks heq
      · exact (congrArg Schedule.tasks heq).trans rfl

/-! ### Since the registration -/

/-- In a run, a registration was accepted, and its task has been registered ever since. -/
structure Registration (s : Scheduler) (before : List Transition) (m : Transition)
    (since : List Transition) (t : TaskInfo) (first : Instant) : Prop where
  /-- The registration was accepted, for this first release. -/
  accepted : ∃ resolver now, m = .register resolver now t ∧
    ((s.after before).register resolver now t).1 = .ok (.registered t.id) ∧
      (s.after before).firstRelease? now t.period = some first
  /-- The task has been registered ever since. -/
  ever : ∀ more, more <+: since → (s.after (before ++ m :: more)).registry.contains t.id = true

/-- A registration that is accepted takes the task in. -/
theorem take_register {s : Scheduler} (hfree : s.registry.held = false) {resolver : Resolver}
    {now : Instant} {t : TaskInfo} {reply : Reply}
    (h : (s.register resolver now t).1 = .ok reply) :
    ∃ handle first, s.vet resolver now t = .ok (handle, first) ∧ reply = .registered t.id ∧
      s.take (.register resolver now t) = s.enlisted ⟨t, handle⟩ first := by
  simp only [take]
  rw [register_eq hfree] at h ⊢
  cases hv : s.vet resolver now t with
  | error e =>
      rw [hv] at h
      cases h
  | ok r =>
      rw [hv] at h
      cases h
      exact ⟨r.1, r.2, rfl, rfl, rfl⟩

/-- A task that comes into the registry has been registered. -/
theorem Consistent.register_of_comes {s : Scheduler} (h : s.Consistent) {m : Transition} {id : TaskId}
    (hnew : s.registry.contains id = false) (hc : (s.take m).registry.contains id = true) :
    ∃ resolver now t first, m = .register resolver now t ∧ t.id = id ∧
      (s.register resolver now t).1 = .ok (.registered t.id) ∧
        s.firstRelease? now t.period = some first := by
  obtain ⟨e, he, hid⟩ := List.any_eq_true.1 hc
  have hnot : e ∉ s.registry.entries := by
    intro hmem
    have hold : s.registry.contains id = true := List.any_eq_true.2 ⟨e, hmem, hid⟩
    rw [hnew] at hold
    cases hold
  rcases h.entries_cases m with heq | ⟨resolver, now, t, handle, first, rfl, hv, heq⟩ | ⟨j, -, heq⟩
  · rw [heq] at he
    exact absurd he hnot
  · rw [heq, List.mem_append, List.mem_singleton] at he
    rcases he with he | rfl
    · exact absurd he hnot
    · have htiming := checkTiming_eq_ok_iff.1 (vet_eq_ok_iff.1 hv).1
      exact ⟨resolver, now, t, first, rfl, by simpa using hid, by rw [register_eq h.free, hv],
        htiming.2.2⟩
  · rw [heq] at he
    exact absurd (List.mem_of_mem_eraseP he) hnot

/-- **Every registered task has been registered** by a transition, and has been there ever since. -/
theorem Consistent.exists_registration {s : Scheduler} (h : s.Consistent)
    (hnone : s.registry.entries = []) (run : List Transition) {id : TaskId}
    (hid : (s.after run).registry.contains id = true) :
    ∃ before m since t first, run = before ++ m :: since ∧ t.id = id ∧
      s.Registration before m since t first := by
  -- By induction from the end: the last transition has registered the task, or an earlier one has.
  induction run using List.reverseRecOn with
  | nil => simp [Registry.contains, hnone] at hid
  | append_singleton run k ih =>
      have hlast : s.after (run ++ [k]) = (s.after run).take k := after_append s run [k]
      cases hbefore : (s.after run).registry.contains id with
      | true =>
          obtain ⟨before, m, since, t, first, rfl, rfl, hreg⟩ := ih hbefore
          refine ⟨before, m, since ++ [k], t, first, by simp, rfl, hreg.accepted, ?_⟩
          intro more hmore
          rcases List.prefix_concat_iff.1 hmore with rfl | hmore
          · rwa [List.append_assoc, List.cons_append] at hid
          · exact hreg.ever more hmore
      | false =>
          rw [hlast] at hid
          obtain ⟨resolver, now, t, first, rfl, rfl, haccepted, hfirst⟩ :=
            (h.after run).register_of_comes hbefore hid
          refine ⟨run, _, [], t, first, rfl, rfl, ⟨resolver, now, rfl, haccepted, hfirst⟩, ?_⟩
          intro more hmore
          rw [List.prefix_nil.1 hmore, hlast]
          exact hid

/-- A record keeps count as long as its task is registered. -/
theorem Consistent.counted_after {s : Scheduler} (h : s.Consistent) {id : TaskId} {t : Task}
    {first : Instant} {period : Duration} {released started : ℕ}
    (ht : s.schedule.task? id = some t) (hc : t.Counted first period released started)
    (since : List Transition)
    (hever : ∀ more, more <+: since → (s.after more).registry.contains id = true) :
    ∃ u, (s.after since).schedule.task? id = some u ∧
      u.Counted first period (released + tally Scheduler.take (releases · id) s since)
        (started + tally Scheduler.take (starts · id) s since) := by
  induction since generalizing s t released started with
  | nil => exact ⟨t, ht, hc⟩
  | cons m since ih =>
      have hnext := h.take m
      have hstays : (s.take m).registry.contains id = true :=
        hever [m] (List.cons_prefix_cons.2 ⟨rfl, List.nil_prefix⟩)
      obtain ⟨u, hu⟩ := hnext.agrees.exists_task? hstays
      have hrest := ih hnext hu (hc.goes (h.goes m ht hu)) fun more hmore =>
        hever (m :: more) (List.cons_prefix_cons.2 ⟨rfl, hmore⟩)
      simpa only [after_cons, tally, Nat.add_assoc] using hrest

/-! ### Counts and records -/

/-- What the counts since a registration and the record of its task have to do with each other. -/
structure Punctual (start : Scheduler) (since : List Transition) (id : TaskId) (first : Instant)
    (period : Duration) (u : Task) : Prop where
  /-- The task has this record. -/
  record : (start.after since).schedule.task? id = some u
  /-- Of the jobs that were released, only a pending one has not started. -/
  jobs : (tally Scheduler.take (releases · id) start since : ℤ) -
    tally Scheduler.take (starts · id) start since = if u.jobPending then 1 else 0
  /-- The next boundary is one period after the first release for every job that has started, up to
  the last one on the clock. -/
  boundary : ∃ m : ℕ,
    IsGreatest {k : ℕ | ∃ i : Instant, i.nanos = first.nanos + k * period.nanos} m ∧
      u.nextRelease.nanos =
        first.nanos + (min (tally Scheduler.take (starts · id) start since) m : ℕ) * period.nanos
  /-- No transition that does not start a job moves the boundary. -/
  unmoved : ∀ k v, ((start.after since).take k).schedule.task? id = some v →
    (start.after since).starts id k = false → v.nextRelease = u.nextRelease

/-- The task of a registration is punctual. -/
theorem Registration.punctual {s : Scheduler} (h : s.Consistent) {before since : List Transition}
    {m : Transition} {t : TaskInfo} {first : Instant} (hreg : s.Registration before m since t first) :
    ∃ u, (s.after (before ++ [m])).Punctual since t.id first t.period u := by
  obtain ⟨resolver, now, rfl, haccepted, hfirst⟩ := hreg.accepted
  have hbefore := h.after before
  obtain ⟨handle, instant, hvet, -, htake⟩ := take_register hbefore.free haccepted
  have htiming := checkTiming_eq_ok_iff.1 (vet_eq_ok_iff.1 hvet).1
  have hinstant : instant = first := Option.some.inj (htiming.2.2.symm.trans hfirst)
  subst hinstant
  have hstart : s.after (before ++ [.register resolver now t]) =
      (s.after before).enlisted ⟨t, handle⟩ instant := by
    rw [after_append, after_cons, after_nil, htake]
  have hnext := h.after (before ++ [.register resolver now t])
  have hrecord : (s.after (before ++ [.register resolver now t])).schedule.task? t.id =
      some (RegistryEntry.asleep ⟨t, handle⟩ instant) := by
    rw [hstart]
    exact (Schedule.task?_put (s.after before).schedule _ t.id).trans (if_pos rfl)
  obtain ⟨u, hu, hcounted⟩ := hnext.counted_after hrecord
    (Task.counted_sleepingUntil t.id handle t.period t.budget instant) since fun more hmore => by
      rw [← after_append, List.append_assoc]
      exact hreg.ever more hmore
  obtain ⟨greatest, hgreatest⟩ : ∃ m, IsGreatest {k | instant.Shows t.period k} m :=
    Instant.exists_greatest_shows htiming.1
  have hjobs := hcounted.jobs
  have hboundary := congrArg Instant.nanos hcounted.boundary
  rw [Nat.zero_add] at hjobs hboundary
  rw [Instant.nanos_boundary hgreatest] at hboundary
  refine ⟨u, hu, ?_, ⟨greatest, hgreatest, hboundary⟩, ?_⟩
  · rw [hjobs]
    cases u.jobPending <;> simp
  · intro k v hv hk
    have hgoes := (hnext.after since).goes k hu hv
    rw [hk] at hgoes
    generalize (releases _ _ k) = r at hgoes
    cases hgoes with
    | stays _ _ boundary => exact boundary
    | released _ _ _ boundary => exact boundary

/-- **Every registered task is punctual** in every run, whichever of its registrations is meant. -/
theorem punctual_after {c : Config} {s : Scheduler} (hs : Scheduler.new c = .ok s)
    (run : List Transition) {id : TaskId} (hid : (s.after run).registry.contains id = true) :
    (∃ before m since t first, run = before ++ m :: since ∧ t.id = id ∧
      s.Registration before m since t first) ∧
    ∀ before m since t first, run = before ++ m :: since → t.id = id →
      s.Registration before m since t first →
      ∃ u, (s.after (before ++ [m])).Punctual since id first t.period u := by
  obtain ⟨-, rfl⟩ := new_eq_ok hs
  have h := consistent_ofConfig c
  refine ⟨h.exists_registration rfl run hid, ?_⟩
  rintro before m since t first - rfl hreg
  exact hreg.punctual h

/-- A task's first job is released, starts, loses the slot, is released again to no effect, goes on
and ends after its boundary: the second job is released by the yield. -/
def lateYield : List Transition :=
  let resolver : Resolver := fun id => some ⟨id.number⟩
  let late : Instant := ⟨2 * 10 ^ 8, by decide, by decide⟩
  [.register resolver Instant.start ⟨⟨1⟩, Duration.ofMillis 100, Duration.ofMillis 1⟩,
    .register resolver Instant.start ⟨⟨2⟩, Duration.ofMillis 50, Duration.ofMillis 1⟩,
    .release ⟨1⟩, .evaluate, .confirm ⟨1⟩, .release ⟨2⟩, .evaluate, .release ⟨1⟩,
    .beginYield ⟨2⟩ Instant.start, .evaluate, .beginYield ⟨1⟩ late]

theorem punctual_after_lateYield :
    Scheduler.new Config.default = .ok (ofConfig Config.default) ∧
      ((ofConfig Config.default).after lateYield).registry.contains ⟨1⟩ = true ∧
      tally Scheduler.take (releases · ⟨1⟩)
        ((ofConfig Config.default).after [lateYield.head (by decide)]) lateYield.tail = 2 ∧
      tally Scheduler.take (starts · ⟨1⟩)
        ((ofConfig Config.default).after [lateYield.head (by decide)]) lateYield.tail = 1 ∧
      ∃ before m since t first, lateYield = before ++ m :: since ∧ t.id = ⟨1⟩ ∧
        (ofConfig Config.default).Registration before m since t first ∧
        ∃ u, ((ofConfig Config.default).after (before ++ [m])).Punctual since ⟨1⟩ first t.period u := by
  have hid : ((ofConfig Config.default).after lateYield).registry.contains ⟨1⟩ = true := by decide
  obtain ⟨⟨before, m, since, t, first, hrun, ht, hreg⟩, hall⟩ :=
    punctual_after (c := Config.default) rfl lateYield hid
  exact ⟨rfl, hid, by decide, by decide, before, m, since, t, first, hrun, ht, hreg,
    hall before m since t first hrun ht hreg⟩

end Scheduler

end RateMonotonic
