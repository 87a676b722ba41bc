/-
**One evaluation does for many.**

A wake only asks for an evaluation, and wakes are dropped where enough of them wait.  Nothing is
lost by that: how often the schedule is evaluated while tasks come, go and are released, and when,
makes no difference to who holds the slot after the last evaluation, nor to who stands behind whom
in the queue.

Two schedulers *agree* if they have the same registry and the same lineup.  Evaluations do not
change the lineup, and an event changes it in a way that depends on lineup and registry only.

Main definitions:
* `Transition.isEvent` — the transitions that leave the slot to the dispatcher;
* `Interspersed` — a run of given events with evaluations anywhere among them;
* `Scheduler.Agree` — the same registry and the same lineup.

Main results:
* `Scheduler.Agree.take` — events keep agreement;
* `Scheduler.agree_evaluate` — an evaluation cannot be told from none;
* `Scheduler.evaluations_coalesce` — **runs of the same events, evaluated here and there, end with
  the same holder and the same queue**.
-/

import RateMonotonic.Proofs.Lineup
import RateMonotonic.Proofs.Runs

set_option relaxedAutoImplicit false
set_option autoImplicit false

namespace RateMonotonic

/-- Whether a transition changes who competes for the slot, and leaves the slot to the
dispatcher. -/
def Transition.isEvent : Transition → Bool
  | .register _ _ _ => true
  | .deregister _ => true
  | .release _ => true
  | _ => false

/-- A run of these events, with evaluations anywhere among them. -/
inductive Interspersed : List Transition → List Transition → Prop where
  | nil : Interspersed [] []
  | event {m : Transition} {events run : List Transition} (h : m.isEvent = true)
      (rest : Interspersed events run) : Interspersed (m :: events) (m :: run)
  | evaluate {events run : List Transition} (rest : Interspersed events run) :
      Interspersed events (.evaluate :: run)

namespace Interspersed

theorem length_le {events run : List Transition} (h : Interspersed events run) :
    events.length ≤ run.length := by
  induction h with
  | nil => exact Nat.le_refl _
  | event _ _ ih => exact Nat.succ_le_succ ih
  | evaluate _ ih => exact Nat.le_succ_of_le ih

/-- The events alone. -/
theorem events_alone {events : List Transition} (h : ∀ m ∈ events, m.isEvent = true) :
    Interspersed events events := by
  induction events with
  | nil => exact .nil
  | cons m events ih =>
      exact .event (h m (by simp)) (ih fun m' hm => h m' (List.mem_cons_of_mem m hm))

/-- An evaluation after every event. -/
theorem after_each {events : List Transition} (h : ∀ m ∈ events, m.isEvent = true) :
    Interspersed events (events.flatMap fun m => [m, .evaluate]) := by
  induction events with
  | nil => exact .nil
  | cons m events ih =>
      have hrest := ih fun m' hm => h m' (List.mem_cons_of_mem m hm)
      exact .event (h m (by simp)) (.evaluate hrest)

end Interspersed

namespace Scheduler

/-- Two schedulers that go on, with the same tasks and the same competition for the slot. -/
structure Agree (s t : Scheduler) : Prop where
  config : s.config = t.config
  registry : s.registry = t.registry
  lineup : s.schedule.lineup = t.schedule.lineup
  live : s.schedule.stopped = false
  live' : t.schedule.stopped = false

theorem Agree.refl {s : Scheduler} (h : s.schedule.stopped = false) : s.Agree s :=
  ⟨rfl, rfl, rfl, h, h⟩

theorem Agree.symm {s t : Scheduler} (h : s.Agree t) : t.Agree s :=
  ⟨h.config.symm, h.registry.symm, h.lineup.symm, h.live', h.live⟩

theorem Agree.trans {s t u : Scheduler} (h : s.Agree t) (h' : t.Agree u) : s.Agree u :=
  ⟨h.config.trans h'.config, h.registry.trans h'.registry, h.lineup.trans h'.lineup, h.live,
    h'.live'⟩

/-- **An evaluation cannot be told from none.** -/
theorem agree_evaluate {s : Scheduler} {n : ℕ} (h : s.Kept n) (hn : n + 1 < 2 ^ 63)
    (hlive : s.schedule.stopped = false) : s.Agree (s.take .evaluate) where
  config := rfl
  registry := rfl
  lineup := (Schedule.lineup_evaluate h.sound h.complete hn).symm
  live := hlive
  live' := h.sound.stopped_evaluate.trans hlive

/-! ### Events -/

theorem config_release (s : Scheduler) (id : TaskId) : (s.release id).config = s.config := by
  unfold release releaseTask
  cases s.schedule.release id with
  | mk outcome next => cases outcome <;> rfl

theorem config_delisted (s : Scheduler) (id : TaskId) (e : RegistryEntry) :
    (s.delisted id e).config = s.config := by
  unfold delisted
  cases s.schedule.holdsSlot id <;> rfl

/-- A lineup after a release: a registered task joins it, unless it is in it. -/
def lineupReleased (r : Registry) (id : TaskId) (l : Row) : Row :=
  match r.find? id with
  | none => l
  | some e => if (id, e.info.period) ∈ l then l else l.behind (id, e.info.period)

/-- What a release does to the lineup can be told from lineup and registry. -/
theorem Kept.lineup_release {s : Scheduler} {n : ℕ} (h : s.Kept n)
    (hlive : s.schedule.stopped = false) (id : TaskId) :
    (s.release id).schedule.lineup = lineupReleased s.registry id s.schedule.lineup := by
  rw [(schedule_release s id).1]
  cases ht : s.schedule.task? id with
  | none =>
      have hfind := h.agrees.entries id (by simp)
      rw [ht] at hfind
      rw [Schedule.release_unknown ht, lineupReleased, ← hfind]
      rfl
  | some t =>
      have hmem : (id, t.period) ∈ s.schedule.lineup ↔
          ∃ u, s.schedule.task? id = some u ∧ u.state ≠ .sleeping ∧ u.period = t.period :=
        Schedule.mem_lineup_iff h.sound h.complete hlive
      have hperiod : t.entry.info.period = t.period := rfl
      simp only [lineupReleased, h.agrees.find?_eq ht, hperiod]
      by_cases hsleep : t.state = .sleeping
      · rw [Schedule.lineup_release h.sound h.complete ht hsleep, if_neg]
        rw [hmem]
        rintro ⟨u, hu, hawake, -⟩
        rw [ht] at hu
        cases hu
        exact hawake hsleep
      · rw [Schedule.release_of_not_sleeping ht hsleep, if_pos (hmem.2 ⟨t, ht, hsleep, rfl⟩)]

/-- What registering a task asks of a scheduler is the same for two that agree. -/
theorem Agree.vet {s t : Scheduler} (h : s.Agree t) (resolver : Resolver) (now : Instant)
    (info : TaskInfo) : s.vet resolver now info = t.vet resolver now info := by
  have htiming : s.checkTiming now info = t.checkTiming now info := by
    simp only [checkTiming, firstRelease?, h.config]
  have hcandidate : s.checkCandidate info = t.checkCandidate info := by
    simp only [checkCandidate, h.config, h.registry]
  simp only [Scheduler.vet, htiming, hcandidate]

theorem Agree.enlisted {s t : Scheduler} {n m : ℕ} (h : s.Agree t) (hs : s.Kept n) (ht : t.Kept m)
    {e : RegistryEntry} (hnew : s.registry.contains e.info.id = false) (first : Instant) :
    (s.enlisted e first).Agree (t.enlisted e first) where
  config := h.config
  registry := by
    show ({ s.registry with entries := s.registry.entries ++ [e] } : Registry) =
      { t.registry with entries := t.registry.entries ++ [e] }
    rw [h.registry]
  lineup := by
    have hs' := Schedule.lineup_put hs.sound (t := e.asleep first) (hs.agrees.task?_eq_none hnew)
    rw [h.registry] at hnew
    have ht' := Schedule.lineup_put ht.sound (t := e.asleep first) (ht.agrees.task?_eq_none hnew)
    exact hs'.trans (h.lineup.trans ht'.symm)
  live := h.live
  live' := h.live'

theorem Agree.delisted {s t : Scheduler} {n m : ℕ} (h : s.Agree t) (hs : s.Kept n) (ht : t.Kept m)
    (id : TaskId) (e : RegistryEntry) : (s.delisted id e).Agree (t.delisted id e) := by
  obtain ⟨hschedule, hregistry⟩ := schedule_delisted s id e
  obtain ⟨hschedule', hregistry'⟩ := schedule_delisted t id e
  refine ⟨?_, ?_, ?_, ?_, ?_⟩
  · rw [config_delisted, config_delisted, h.config]
  · rw [hregistry, hregistry', h.registry]
  · rw [hschedule, hschedule', Schedule.lineup_withdraw hs.sound,
      Schedule.lineup_withdraw ht.sound, h.lineup]
  · rw [hschedule]
    exact h.live
  · rw [hschedule']
    exact h.live'

/-- **Events keep agreement.** -/
theorem Agree.take {s t : Scheduler} {n k : ℕ} (h : s.Agree t) (hs : s.Kept n) (ht : t.Kept k)
    {m : Transition} (hm : m.isEvent = true) : (s.take m).Agree (t.take m) := by
  cases m with
  | register resolver now info =>
      simp only [Scheduler.take, register_eq hs.free, register_eq ht.free, ← h.vet]
      cases hv : s.vet resolver now info with
      | error e => exact h
      | ok r => exact h.enlisted hs ht (contains_of_vet hv) r.2
  | deregister id =>
      simp only [Scheduler.take, deregister_eq hs.free, deregister_eq ht.free, ← h.registry]
      cases s.registry.find? id with
      | none => exact h
      | some e => exact h.delisted hs ht id e
  | release id =>
      refine ⟨?_, ?_, ?_, ?_, ?_⟩
      · exact (config_release s id).trans (h.config.trans (config_release t id).symm)
      · exact (schedule_release s id).2.trans (h.registry.trans (schedule_release t id).2.symm)
      · simp only [Scheduler.take]
        rw [hs.lineup_release h.live, ht.lineup_release h.live', h.registry, h.lineup]
      · simp only [Scheduler.take, (schedule_release s id).1]
        exact (Schedule.stopped_release s.schedule id).trans h.live
      · simp only [Scheduler.take, (schedule_release t id).1]
        exact (Schedule.stopped_release t.schedule id).trans h.live'
  | beginYield _ _ => simp [Transition.isEvent] at hm
  | evaluate => simp [Transition.isEvent] at hm
  | confirm _ => simp [Transition.isEvent] at hm
  | stop => simp [Transition.isEvent] at hm

/-! ### Runs -/

/-- A run with evaluations agrees with the events alone. -/
theorem Agree.after {s t : Scheduler} {n k : ℕ} (h : s.Agree t) (hs : s.Kept n) (ht : t.Kept k)
    {events run : List Transition} (hrun : Interspersed events run)
    (hn : n + run.length < 2 ^ 63) (hk : k + events.length < 2 ^ 63) :
    (s.after run).Agree (t.after events) := by
  induction hrun generalizing s t n k with
  | nil => exact h
  | event hm _ ih =>
      simp only [List.length_cons] at hn hk
      exact ih (h.take hs ht hm) (hs.take (by omega) _) (ht.take (by omega) _) (by omega) (by omega)
  | evaluate _ ih =>
      simp only [List.length_cons] at hn
      have hsame := (agree_evaluate hs (by omega) h.live).symm.trans h
      exact ih hsame (hs.take (by omega) _) ht (by omega) hk

/-- Two schedulers that agree have the same holder and the same queue once both are evaluated. -/
theorem Agree.evaluated {s t : Scheduler} {n k : ℕ} (h : s.Agree t) (hs : s.Kept n) (ht : t.Kept k)
    (hn : n + 1 < 2 ^ 63) (hk : k + 1 < 2 ^ 63) :
    (s.take .evaluate).schedule.current = (t.take .evaluate).schedule.current ∧
      (s.take .evaluate).schedule.ready.row = (t.take .evaluate).schedule.ready.row := by
  have hsame : (s.take .evaluate).Agree (t.take .evaluate) :=
    (agree_evaluate hs hn h.live).symm.trans (h.trans (agree_evaluate ht hk h.live'))
  obtain ⟨hcurrent, hrow⟩ := hs.sound.settled_evaluate.eq_lineup hs.sound.evaluate hsame.live
  obtain ⟨hcurrent', hrow'⟩ := ht.sound.settled_evaluate.eq_lineup ht.sound.evaluate hsame.live'
  exact ⟨hcurrent.trans (hsame.lineup ▸ hcurrent'.symm), hrow.trans (hsame.lineup ▸ hrow'.symm)⟩

/-- **Runs of the same events end with the same holder and the same queue**, wherever in them the
schedule was evaluated besides the end. -/
theorem evaluations_coalesce {c : Config} {s : Scheduler} (hs : Scheduler.new c = .ok s)
    (before : List Transition) (hlive : (s.after before).schedule.stopped = false)
    {events run₁ run₂ : List Transition} (h₁ : Interspersed events run₁)
    (h₂ : Interspersed events run₂) (hn₁ : before.length + run₁.length + 1 < 2 ^ 63)
    (hn₂ : before.length + run₂.length + 1 < 2 ^ 63) :
    (s.after (before ++ run₁ ++ [.evaluate])).schedule.current =
        (s.after (before ++ run₂ ++ [.evaluate])).schedule.current ∧
      (s.after (before ++ run₁ ++ [.evaluate])).schedule.ready.ids =
        (s.after (before ++ run₂ ++ [.evaluate])).schedule.ready.ids := by
  obtain ⟨-, rfl⟩ := new_eq_ok hs
  have hkept : ((ofConfig c).after before).Kept before.length := by
    have h := (kept_ofConfig c).after before (by omega)
    rwa [Nat.zero_add] at h
  have hlength := h₁.length_le
  -- Both runs agree with the events alone.
  have hagree₁ := (Agree.refl hlive).after hkept hkept h₁ (by omega) (by omega)
  have hagree₂ := (Agree.refl hlive).after hkept hkept h₂ (by omega) (by omega)
  have hends := (hagree₁.trans hagree₂.symm).evaluated (hkept.after run₁ (by omega))
    (hkept.after run₂ (by omega)) (by omega) (by omega)
  simp only [after_append, after_cons, after_nil, ReadyQueue.ids_eq_map_row]
  exact ⟨hends.1, congrArg (List.map Prod.fst) hends.2⟩

/-- A third task is registered and released, and the slot's holder leaves. -/
def succession : List Transition :=
  [.register (fun id => some ⟨id.number⟩) Instant.start
      ⟨⟨3⟩, Duration.ofMillis 50, Duration.ofMillis 1⟩,
    .release ⟨3⟩, .deregister ⟨2⟩]

/-- One evaluation at the end of a succession, and one more after every event of it. -/
theorem evaluations_coalesce_succession :
    let s := ofConfig Config.default
    let each := succession.flatMap fun m => [m, .evaluate]
    (s.after overtaking).schedule.stopped = false ∧
      (s.after (overtaking ++ succession ++ [.evaluate])).schedule.current = some ⟨3⟩ ∧
      (s.after (overtaking ++ succession ++ [.evaluate])).schedule.current =
        (s.after (overtaking ++ each ++ [.evaluate])).schedule.current ∧
      (s.after (overtaking ++ succession ++ [.evaluate])).schedule.ready.ids =
        (s.after (overtaking ++ each ++ [.evaluate])).schedule.ready.ids :=
  ⟨by decide, by decide,
    evaluations_coalesce (c := Config.default) rfl overtaking (by decide)
      (Interspersed.events_alone (by simp [succession, Transition.isEvent]))
      (Interspersed.after_each (by simp [succession, Transition.isEvent])) (by decide) (by decide)⟩

end Scheduler

end RateMonotonic
