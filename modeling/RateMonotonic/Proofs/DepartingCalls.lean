/-
**A deregistered task is gone**, whatever runs between the sections of its deregistration.

A deregistration cancels the task's timer, waits for the callback to end, and takes the task out of
the schedule and out of the registry.  That no timer is left depends on who may arm one: only a call
inside the registry does, and only for a registered task, and the deregistration stays inside from
before the cancellation until the task is no longer registered.  So whoever comes later with the
task's number, a round that has decided to grant the slot to it or a callback that was about to
release it, finds nothing any more.

Main definitions:
* `System.Armed` — timers belong to registered tasks, and a deregistration has dropped its timer;
* `System.enrolls`, `System.Gone` — a task is registered; a task is absent until it is registered
  again;
* `System.Departed` — a call has taken its task away, and the task has been gone since;
* `System.DepartsCleanly` — what deregistrations do in a run.

Main results:
* `System.Armed.act` — **every action keeps timers with registered tasks**;
* `System.gone_of_unlisted` — **an unregistered task is absent until it is registered again**;
* `System.departing_after` — a deregistration that is not refused has taken its task away;
* `System.departsCleanly_after` — **every deregistration takes its task away, and nothing else**.
-/

import RateMonotonic.Proofs.Departures
import RateMonotonic.Proofs.System

set_option relaxedAutoImplicit false
set_option autoImplicit false

namespace RateMonotonic

/-! ### Timers of registered tasks -/

namespace Activity

/-- The task whose timer a call is about to arm. -/
def arms : Activity → Option TaskId
  | .armFirst id _ => some id
  | .armNext id _ => some id
  | _ => none

/-- The task whose timer a call has dropped. -/
def dropped : Activity → Option TaskId
  | .awaitCallback id => some id
  | .withdraw id => some id
  | .strike id _ => some id
  | _ => none

theorem holds_of_arms {a : Activity} {id : TaskId} (h : a.arms = some id) : a.holds = true := by
  cases a <;> first | rfl | cases h

theorem holds_of_dropped {a : Activity} {id : TaskId} (h : a.dropped = some id) :
    a.holds = true := by
  cases a <;> first | rfl | cases h

theorem arms_of_closing {a : Activity} (h : a.closing = true) : a.arms = none := by
  cases a <;> first | rfl | cases h

theorem dropped_of_closing {a : Activity} (h : a.closing = true) : a.dropped = none := by
  cases a <;> first | rfl | cases h

variable {s next : Scheduler} {a rest : Activity} {id : TaskId}

/-- A timer that is pending after a section was pending before, or has been armed by it. -/
theorem Advances.deadline?_cases (h : Advances s a next rest) {d : Instant}
    (hd : next.timers.deadline? id = some d) :
    s.timers.deadline? id = some d ∨ a.arms = some id := by
  cases h with
  | @armFirst j first _ =>
      by_cases hj : j = id
      · exact Or.inr (congrArg some hj)
      · exact Or.inl ((Timers.deadline?_arm_of_ne s.timers hj first).symm.trans hd)
  | @armNext j y _ armed =>
      subst armed
      by_cases hj : j = id
      · exact Or.inr (congrArg some hj)
      · cases hat : y.armAt with
        | none =>
            rw [hat] at hd
            exact Or.inl hd
        | some deadline =>
            rw [hat] at hd
            exact Or.inl ((Timers.deadline?_arm_of_ne s.timers hj deadline).symm.trans hd)
  | @cancel j =>
      have hcancel := Timers.deadline?_cancel s.timers j id
      rw [show (s.cancel j).timers.deadline? id = _ from hcancel] at hd
      split at hd
      · cases hd
      · exact Or.inl hd
  | shutTimers => cases hd
  | _ => exact Or.inl hd

/-- A call comes to arm the timer of a registered task. -/
theorem Advances.arms (h : Advances s a next rest) (ha : a.proper = true)
    (hfits : a.holds = true → a.Fits s) (harms : rest.arms = some id) :
    next.registry.contains id = true := by
  have hclosing : ∀ {r : Activity}, r.closing = true → r.arms ≠ some id := by
    intro r hr
    simp [arms_of_closing hr]
  cases h with
  | enroll _ =>
      cases harms
      simp [Registry.contains, Scheduler.enrolled, Scheduler.withSchedule]
  | endJob _ =>
      cases harms
      exact (hfits rfl).listed id rfl
  | armNext _ => exact absurd harms (hclosing (closing_afterYield _ _))
  | @strike _ freed _ _ _ => cases freed <;> cases harms
  | unjoined => exact absurd harms (hclosing ha)
  | join _ => exact absurd harms (hclosing ha)
  | shutTimers => exact absurd harms (hclosing ha)
  | awaitWorker => exact absurd harms (hclosing ha)
  | reset => exact absurd harms (hclosing ha)
  | post => exact absurd harms (hclosing ha)
  | _ => cases harms

/-- A call drops the timer of its task before it takes the task away. -/
theorem Advances.dropped (h : Advances s a next rest) (ha : a.proper = true)
    (hown : a.dropped = some id → s.timers.deadline? id = none)
    (hrest : rest.dropped = some id) : next.timers.deadline? id = none := by
  have hclosing : ∀ {r : Activity}, r.closing = true → r.dropped ≠ some id := by
    intro r hr
    simp [dropped_of_closing hr]
  cases h with
  | @cancel j =>
      cases hrest
      exact (Timers.deadline?_cancel s.timers id id).trans (if_pos rfl)
  | await _ => exact hown hrest
  | withdraw => exact hown hrest
  | @strike _ freed _ _ _ => cases freed <;> cases hrest
  | armNext _ => exact absurd hrest (hclosing (closing_afterYield _ _))
  | unjoined => exact absurd hrest (hclosing ha)
  | join _ => exact absurd hrest (hclosing ha)
  | shutTimers => exact absurd hrest (hclosing ha)
  | awaitWorker => exact absurd hrest (hclosing ha)
  | reset => exact absurd hrest (hclosing ha)
  | post => exact absurd hrest (hclosing ha)
  | _ => cases hrest

/-- A section leaves a task registered, unless it strikes the task off the registry. -/
theorem Advances.contains (h : Advances s a next rest) (hfits : a.holds = true → a.Fits s)
    (hlisted : s.registry.contains id = true) :
    next.registry.contains id = true ∨ ∃ freed, a = .strike id freed := by
  rcases h.entries_cases with heq | ⟨e, -, -, -, heq⟩ | ⟨j, freed, rfl, heq⟩
  · simp only [Registry.contains, heq] at hlisted ⊢
    exact Or.inl hlisted
  · simp only [Registry.contains, heq, List.any_append, Bool.or_eq_true] at hlisted ⊢
    exact Or.inl (Or.inl hlisted)
  · by_cases hj : j = id
    · exact Or.inr ⟨freed, by rw [hj]⟩
    · have hremoved := Registry.contains_eraseP (hfits rfl).agrees.distinct j id false
      rw [hlisted, decide_eq_true hj] at hremoved
      simp only [Registry.contains, heq] at hremoved ⊢
      exact Or.inl hremoved

end Activity

namespace System

variable {y : System} {id : TaskId} {i : ℕ}

/-- Timers belong to registered tasks. -/
structure Armed (y : System) : Prop where
  /-- A timer is pending for registered tasks only. -/
  listed : ∀ id d, y.scheduler.timers.deadline? id = some d →
    y.scheduler.registry.contains id = true
  /-- A timer is about to be armed for registered tasks only. -/
  arming : ∀ a ∈ y.calls, ∀ id, a.arms = some id → y.scheduler.registry.contains id = true
  /-- A call that takes a task away has dropped the task's timer. -/
  dropped : ∀ a ∈ y.calls, ∀ id, a.dropped = some id → y.scheduler.timers.deadline? id = none

theorem armed_idle (c : Config) : (idle (Scheduler.ofConfig c)).Armed where
  listed := by
    intro id d hd
    cases hd
  arming := by simp [idle]
  dropped := by simp [idle]

theorem Armed.advance (h : y.Armed) (hy : y.Kept) {l r : List Activity} {a rest : Activity}
    {next : Scheduler} (hcalls : y.calls = l ++ a :: r) (ha : a.Advances y.scheduler next rest) :
    Armed ⟨next, l ++ rest :: r⟩ := by
  have hmem : a ∈ y.calls := by simp [hcalls]
  have hothers : ∀ b, b ∈ l ∨ b ∈ r → b ∈ y.calls := by
    rintro b (hb | hb) <;> simp [hcalls, hb]
  have hproper := hy.proper a hmem
  have hfits := hy.fits a hmem
  -- Another call inside the registry excludes this one from it.
  have houtside : ∀ b, b ∈ l ∨ b ∈ r → b.holds = true → a.holds = false := by
    intro b hb hin
    cases hown : a.holds with
    | false => rfl
    | true =>
        rw [hy.outside_of_other hcalls hown hb] at hin
        cases hin
  refine ⟨fun id d hd => ?_, forall_calls_iff.2 ⟨fun id => ha.arms hproper hfits, ?_⟩,
    forall_calls_iff.2 ⟨fun id => ha.dropped hproper (h.dropped a hmem id), ?_⟩⟩
  · rcases ha.deadline?_cases hd with hbefore | harms
    · rcases ha.contains hfits (h.listed id d hbefore) with hlisted | ⟨freed, rfl⟩
      · exact hlisted
      · rw [h.dropped _ hmem id rfl] at hbefore
        cases hbefore
    · rcases ha.contains hfits (h.arming a hmem id harms) with hlisted | ⟨freed, rfl⟩
      · exact hlisted
      · cases harms
  · intro b hb id harms
    have hout := houtside b hb (Activity.holds_of_arms harms)
    have hlisted := h.arming b (hothers b hb) id harms
    simp only [Registry.contains, (ha.outside hout).1] at hlisted ⊢
    exact hlisted
  · intro b hb id hdropped
    have hout := houtside b hb (Activity.holds_of_dropped hdropped)
    cases hd : next.timers.deadline? id with
    | none => rfl
    | some d =>
        rcases ha.deadline?_cases hd with hbefore | harms
        · rw [h.dropped b (hothers b hb) id hdropped] at hbefore
          cases hbefore
        · rw [Activity.holds_of_arms harms] at hout
          cases hout

/-- A step of a thread arms no timer. -/
theorem Armed.thread (h : y.Armed) {next : Scheduler}
    (hregistry : next.registry = y.scheduler.registry)
    (htimers : ∀ id d, next.timers.deadline? id = some d →
      y.scheduler.timers.deadline? id = some d) : Armed ⟨next, y.calls⟩ where
  listed := by
    intro id d hd
    rw [hregistry]
    exact h.listed id d (htimers id d hd)
  arming := by
    rw [hregistry]
    exact h.arming
  dropped := by
    intro a ha id hdropped
    cases hd : next.timers.deadline? id with
    | none => rfl
    | some d =>
        have hnone := h.dropped a ha id hdropped
        rw [htimers id d hd] at hnone
        cases hnone

/-- **Every action keeps timers with registered tasks.** -/
theorem Armed.act (h : y.Armed) (hy : y.Kept) (m : Action) : (y.act m).Armed := by
  have hacts := acts_act hy.proper m
  generalize y.act m = next at hacts
  cases hacts with
  | stutter _ => exact h
  | invoke _ =>
      refine ⟨h.listed, fun a ha id harms => ?_, fun a ha id hdropped => ?_⟩
      · rcases List.mem_append.1 ha with ha | ha
        · exact h.arming a ha id harms
        · rw [List.mem_singleton.1 ha] at harms
          cases harms
      · rcases List.mem_append.1 ha with ha | ha
        · exact h.dropped a ha id hdropped
        · rw [List.mem_singleton.1 ha] at hdropped
          cases hdropped
  | advance hcalls ha => exact h.advance hy hcalls ha
  | loop hloop =>
      refine h.thread (hloop.keeps hy.sound).registry fun id d hd => ?_
      cases hloop <;> exact hd
  | worker hworker =>
      refine h.thread (hworker.keeps hy.sound).registry fun id d hd => ?_
      cases hworker with
      | @take k _ _ _ polled =>
          obtain ⟨-, -, -, -, hdeadline⟩ := Timers.poll_eq_some polled
          have hafter := (hdeadline id).symm.trans hd
          split at hafter
          · cases hafter
          · exact hafter
      | _ => exact hd

theorem Armed.after (h : y.Armed) (hy : y.Kept) (run : List Action) : (y.after run).Armed :=
  hy.invariant h run fun m _ _ hz hbefore => hbefore.act hz m

/-- An unregistered task is absent. -/
theorem Armed.absent (h : y.Armed) (hy : y.Kept)
    (hunlisted : y.scheduler.registry.contains id = false) : y.scheduler.Absent id := by
  obtain ⟨leaving, hmatches, -⟩ := hy.exists_matches
  refine Scheduler.absent_of_unlisted hy.sound hmatches hunlisted ?_
  cases hd : y.scheduler.timers.deadline? id with
  | none => rfl
  | some d =>
      rw [h.listed id d hd] at hunlisted
      cases hunlisted

/-! ### Absent until registered again -/

/-- Whether an action takes a task into the registry: it is the section of a registration that
does. -/
def enrolls (y : System) (id : TaskId) : Action → Bool
  | .advance i _ _ =>
      match y.calls[i]? with
      | some (.enroll e _) => decide (e.info.id = id)
      | _ => false
  | _ => false

/-- Whether a task is taken into the registry in a run. -/
def enrollsIn (id : TaskId) : System → List Action → Bool
  | _, [] => false
  | y, m :: run => y.enrolls id m || enrollsIn id (y.act m) run

/-- A task is absent until it is registered again. -/
def Gone (y : System) (id : TaskId) : Prop :=
  ∀ run, y.enrollsIn id run = false → (y.after run).scheduler.Absent id

theorem enrollsIn_append (y : System) (id : TaskId) (run more : List Action) :
    y.enrollsIn id (run ++ more) = (y.enrollsIn id run || (y.after run).enrollsIn id more) := by
  induction run generalizing y with
  | nil => simp [enrollsIn]
  | cons m run ih => simp [enrollsIn, ih, Bool.or_assoc]

/-- Nobody but a registration takes a task into the registry. -/
theorem Kept.unlisted_act (hy : y.Kept) (h : y.scheduler.registry.contains id = false) {m : Action}
    (hm : y.enrolls id m = false) : (y.act m).scheduler.registry.contains id = false := by
  have hsame : ∀ {next : Scheduler}, next.registry.entries = y.scheduler.registry.entries →
      next.registry.contains id = false := by
    intro next heq
    simp only [Registry.contains, heq] at h ⊢
    exact h
  cases m with
  | invoke c => cases c <;> exact h
  | advance j resolver now =>
      rcases act_advance y j resolver now with heq | ⟨l, a, r, next, rest, hcalls, hj, hstep, heq⟩
      · rwa [heq]
      · rw [heq]
        have hadvances := Activity.advances_of_step (hy.proper a (by simp [hcalls])) hstep
        rcases hadvances.entries_cases with hentries | ⟨e, first, rfl, -, hentries⟩ |
          ⟨k, freed, rfl, hentries⟩
        · exact hsame hentries
        · have hne : e.info.id ≠ id := by simpa [enrolls, hj] using hm
          simp only [Registry.contains, hentries, List.any_append] at h ⊢
          simp [h, hne]
        · simp only [Registry.contains, hentries] at h ⊢
          rw [Bool.eq_false_iff, ne_eq, List.any_eq_true] at h ⊢
          rintro ⟨e, he, hid⟩
          exact h ⟨e, List.mem_of_mem_eraseP he, hid⟩
  | loop =>
      have hacts := acts_act hy.proper .loop
      generalize y.act .loop = next at hacts
      cases hacts with
      | stutter _ => exact h
      | loop hloop => exact hsame (by rw [(hloop.keeps hy.sound).registry])
  | worker now =>
      have hacts := acts_act hy.proper (.worker now)
      generalize y.act (.worker now) = next at hacts
      cases hacts with
      | stutter _ => exact h
      | worker hworker => exact hsame (by rw [(hworker.keeps hy.sound).registry])

/-- **An unregistered task is absent until it is registered again.** -/
theorem gone_of_unlisted (hy : y.Kept) (ha : y.Armed)
    (hunlisted : y.scheduler.registry.contains id = false) : y.Gone id := by
  intro run
  induction run generalizing y with
  | nil => exact fun _ => ha.absent hy hunlisted
  | cons m run ih =>
      intro hnobody
      obtain ⟨hm, hrest⟩ := Bool.or_eq_false_iff.1 hnobody
      exact ih (hy.act m) (ha.act hy m) (hy.unlisted_act hunlisted hm) hrest

theorem Gone.after (h : y.Gone id) {run : List Action} (hnobody : y.enrollsIn id run = false) :
    (y.after run).Gone id := by
  intro more hmore
  rw [← after_append]
  exact h (run ++ more) (by rw [enrollsIn_append, hnobody, hmore]; rfl)

end System

/-! ### A deregistration among other calls -/

namespace Activity

/-- Whether a call is to deregister a task that it has not struck off the registry yet. -/
def departing (id : TaskId) : Activity → Bool
  | .call (.deregister j) => decide (j = id)
  | .cancel j => decide (j = id)
  | .awaitCallback j => decide (j = id)
  | .withdraw j => decide (j = id)
  | .strike j _ => decide (j = id)
  | _ => false

/-- Whether a call has struck a task off the registry. -/
def departed (id : TaskId) : Activity → Bool
  | .reset _ rest => rest.departed id
  | .post _ rest => rest.departed id
  | .answered (.ok (.deregistered j)) => decide (j = id)
  | _ => false

variable {s next : Scheduler} {resolver : Resolver} {now : Instant} {a rest : Activity}
  {id : TaskId}

theorem departed_of_step (h : a.step s resolver now = some (next, rest))
    (ha : a.departed id = true) : rest.departed id = true := by
  cases a with
  | reset handle rest =>
      cases h
      exact ha
  | post wake rest =>
      cases h
      exact ha
  | answered x => cases h
  | _ => cases ha

/-- **A deregistration goes on**, is refused, or strikes its task off the registry. -/
theorem departing_of_step (h : a.step s resolver now = some (next, rest))
    (hfits : a.holds = true → a.Fits s) (ha : a.departing id = true) :
    rest.departing id = true ∨ (∃ e, rest = .answered (.error e)) ∨
      (s.registry.contains id = true ∧ next = s.struck id ∧ rest.departed id = true) := by
  cases a with
  | call c =>
      cases c with
      | deregister j =>
          have hbegin : begin s now (.deregister j) = (next, rest) := Option.some.inj h
          simp only [begin] at hbegin
          split at hbegin <;> cases hbegin
          · exact Or.inr (Or.inl ⟨_, rfl⟩)
          · exact Or.inl ha
      | _ => cases ha
  | cancel j =>
      cases h
      exact Or.inl ha
  | awaitCallback j =>
      simp only [step] at h
      split at h <;> cases h
      exact Or.inl ha
  | withdraw j =>
      cases h
      exact Or.inl ha
  | strike j freed =>
      obtain rfl : j = id := of_decide_eq_true ha
      have hlisted := (hfits rfl).listed j rfl
      simp only [step] at h
      split at h <;> cases h
      · exact Or.inr (Or.inl ⟨_, rfl⟩)
      · next ok =>
          refine Or.inr (Or.inr ⟨hlisted, (Scheduler.strike_eq_ok ok).2, ?_⟩)
          cases freed <;> simp [departed]
  | _ => cases ha

end Activity

namespace System

variable {y : System} {id : TaskId} {i : ℕ}

/-- In a run, a call has taken a task out of the registry.  The task has been absent since, as long
as nobody has registered it again. -/
def Departed (y : System) (i : ℕ) (id : TaskId) (run : List Action) : Prop :=
  ∃ before resolver now since, run = before ++ .advance i resolver now :: since ∧
    (y.after before).scheduler.registry.contains id = true ∧
      (y.after (before ++ [.advance i resolver now])).Gone id ∧
        ((y.after (before ++ [.advance i resolver now])).enrollsIn id since = false →
          (y.after run).Gone id)

theorem Departed.snoc {run : List Action} (h : y.Departed i id run) (m : Action) :
    y.Departed i id (run ++ [m]) := by
  obtain ⟨before, resolver, now, since, rfl, hlisted, hgone, -⟩ := h
  refine ⟨before, resolver, now, since ++ [m], by simp, hlisted, hgone, fun hnobody => ?_⟩
  have hafter := hgone.after hnobody
  rw [← after_append] at hafter
  simpa using hafter

/-- The section that strikes a task off the registry is the one from which on the task is gone. -/
theorem Kept.departed_of_struck {run : List Action} (hkept : (y.after run).Kept) (hy : y.Kept)
    (ha : y.Armed) (hlisted : (y.after run).scheduler.registry.contains id = true)
    {resolver : Resolver} {now : Instant}
    (hstruck : ((y.after run).act (.advance i resolver now)).scheduler =
      (y.after run).scheduler.struck id) :
    y.Departed i id (run ++ [.advance i resolver now]) := by
  have hnext := y.after_concat run (.advance i resolver now)
  obtain ⟨leaving, hmatches, -⟩ := hkept.exists_matches
  have hunlisted : (y.after (run ++ [.advance i resolver now])).scheduler.registry.contains id =
      false := by
    rw [hnext, hstruck]
    refine (Registry.contains_eraseP hmatches.distinct id id false).trans ?_
    rw [decide_eq_false (fun hne => hne rfl), Bool.false_and]
  have hgone := gone_of_unlisted (hy.after _) (ha.after hy _) hunlisted
  exact ⟨run, resolver, now, [], rfl, hlisted, hgone, fun _ => hgone⟩

/-- **A deregistration has not struck its task off the registry yet, has been refused, or has taken
the task away.** -/
theorem departing_after (hy : y.Kept) (ha : y.Armed)
    (hcall : y.calls[i]? = some (.call (.deregister id))) (run : List Action) :
    ∃ a, (y.after run).calls[i]? = some a ∧
      (a.departing id = true ∨ (∃ e, a = .answered (.error e)) ∨
        (a.departed id = true ∧ y.Departed i id run)) := by
  refine hy.history (Q := fun run => ∃ a, (y.after run).calls[i]? = some a ∧
    (a.departing id = true ∨ (∃ e, a = .answered (.error e)) ∨
      (a.departed id = true ∧ y.Departed i id run))) run ?_ ?_
  · exact ⟨_, hcall, Or.inl (decide_eq_true rfl)⟩
  · rintro before m - hkept ⟨a, hi, hbefore⟩
    have hnext := y.after_concat before m
    rcases getElem?_act (y.after before) m i with
      ⟨hsame, -⟩ | ⟨_, -, hnone, -⟩ | ⟨resolver, now, b, next, rest, rfl, hb, hstep, heq⟩
    · rw [hnext, hsame]
      exact ⟨a, hi, hbefore.imp_right (Or.imp_right (And.imp_right fun h => h.snoc m))⟩
    · rw [hnone] at hi
      cases hi
    · rw [hi] at hb
      cases hb
      obtain ⟨hlt, -⟩ := List.getElem?_eq_some_iff.1 hi
      refine ⟨rest, by rw [hnext, heq]; exact List.getElem?_set_self hlt, ?_⟩
      rcases hbefore with hdeparting | ⟨e, rfl⟩ | ⟨hdeparted, hgone⟩
      · have hmem : a ∈ (y.after before).calls := List.mem_of_getElem? hi
        rcases Activity.departing_of_step hstep (hkept.fits a hmem) hdeparting with
          hdeparting | hrefused | ⟨hlisted, hstruck, hdeparted⟩
        · exact Or.inl hdeparting
        · exact Or.inr (Or.inl hrefused)
        · exact Or.inr (Or.inr ⟨hdeparted, hkept.departed_of_struck hy ha hlisted
            (by rw [heq]; exact hstruck)⟩)
      · cases hstep
      · exact Or.inr (Or.inr ⟨Activity.departed_of_step hstep hdeparted, hgone.snoc _⟩)

end System

/-! ### Every run -/

namespace System

/-- What a deregistration does. -/
structure DepartsCleanly (y : System) (run : List Action) : Prop where
  /-- Among other calls, a deregistration that has returned in the positive has taken its task away
  with one of its sections.  The task has been absent from there on, and is so until it is
  registered again. -/
  returned : ∀ before since id reply, run = before ++ .invoke (.deregister id) :: since →
    (y.after run).calls[(y.after before).calls.length]? = some (.answered (.ok reply)) →
      reply = .deregistered id ∧ (y.after (before ++ [.invoke (.deregister id)])).Departed
        (y.after before).calls.length id since
  /-- As one step it is not refused for a registered task, when nobody is inside the registry. -/
  answered : ∀ id, (y.after run).scheduler.registry.held = false →
    (y.after run).scheduler.registry.contains id = true →
      ((y.after run).scheduler.deregister id).1 = .ok (.deregistered id)
  /-- It leaves the other tasks as they are, and nothing of its own. -/
  alone : ∀ id reply, ((y.after run).scheduler.deregister id).1 = .ok reply →
    (y.after run).scheduler.Spared ((y.after run).scheduler.deregister id).2 id ∧
      ((y.after run).scheduler.deregister id).2.Absent id
  /-- It undoes a registration that was accepted just before. -/
  undone : ∀ resolver now t reply,
    ((y.after run).scheduler.register resolver now t).1 = .ok reply →
      (((y.after run).scheduler.register resolver now t).2.deregister t.id).1 =
          .ok (.deregistered t.id) ∧
        (y.after run).scheduler.Restores
          (((y.after run).scheduler.register resolver now t).2.deregister t.id).2

/-- **Every deregistration takes its task away, and nothing else.** -/
theorem departsCleanly_after {c : Config} {s : Scheduler} (hs : Scheduler.new c = .ok s)
    (run : List Action) : (idle s).DepartsCleanly run := by
  obtain ⟨-, rfl⟩ := Scheduler.new_eq_ok hs
  have hkept := (kept_idle c).after run
  have harmed := (armed_idle c).after (kept_idle c) run
  obtain ⟨leaving, hmatches, -⟩ := hkept.exists_matches
  refine ⟨?_, fun id => Scheduler.deregister_of_contains, fun id reply hok => ⟨?_, ?_⟩,
    fun resolver now t reply hok => ?_⟩
  · rintro before since id reply rfl hanswered
    have hmade := after_concat (idle (Scheduler.ofConfig c)) before (.invoke (.deregister id))
    have hcall : ((idle (Scheduler.ofConfig c)).after
        (before ++ [.invoke (.deregister id)])).calls[
          ((idle (Scheduler.ofConfig c)).after before).calls.length]? =
            some (.call (.deregister id)) := by
      rw [hmade]
      simp [System.act]
    have hsince := departing_after ((kept_idle c).after _) ((armed_idle c).after (kept_idle c) _)
      hcall since
    rw [← after_middle, hanswered] at hsince
    obtain ⟨a, ha, hdeparting | ⟨e, hrefused⟩ | ⟨hdeparted, hgone⟩⟩ := hsince <;> cases ha
    · cases hdeparting
    · cases hrefused
    · refine ⟨?_, hgone⟩
      cases reply with
      | deregistered j => exact congrArg Reply.deregistered (of_decide_eq_true hdeparted)
      | _ => cases hdeparted
  · exact Scheduler.spared_of_deregister hmatches hok
  · exact Scheduler.absent_of_deregister hkept.sound
      (hkept.agrees (Scheduler.held_of_deregister hok)) hok
  · exact Scheduler.restores_of_register
      (harmed.absent hkept (Scheduler.unlisted_of_register hok)) hok

/-- A task is registered, and the loop is started. -/
def sleeping : List Action :=
  .invoke (.register ⟨⟨1⟩, Duration.ofMillis 100, Duration.ofMillis 1⟩) ::
    sections 0 4 Instant.start ++
  .invoke .start :: sections 1 3 Instant.start

/-- The task is deregistered while its callback releases it, and while the loop grants the slot to
it and raises its priority. -/
def leavingAwake (now : Instant) : List Action :=
  .worker now :: sections 2 3 now ++ [.worker now] ++ List.replicate 4 .loop ++
    List.replicate 2 (.worker now) ++ sections 2 5 now ++ List.replicate 4 .loop

theorem departsCleanly_leavingAwake :
    let y := idle (Scheduler.ofConfig Config.default)
    let run := sleeping ++
      .invoke (.deregister ⟨1⟩) :: leavingAwake ⟨2 * 10 ^ 9, by decide, by decide⟩
    y.DepartsCleanly run ∧
      (y.after run).calls[2]? = some (.answered (.ok (.deregistered ⟨1⟩))) ∧
      (y.after run).scheduler.dispatcher.priorities.events =
        [.elevate ⟨1⟩ .fifo 99, .reset ⟨1⟩, .reset ⟨1⟩] :=
  ⟨departsCleanly_after (c := Config.default) rfl _, by rfl, by decide⟩

end System

end RateMonotonic
