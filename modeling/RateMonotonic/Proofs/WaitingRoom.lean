/-
**Those who wait, and deregistrations.**

The threads that wait for a task to be dispatched stand beside the system: they look at the
schedule, and three sections wake all of them.  Notifying belongs to the section before it here, and
whoever is notified later, or for no reason, is woken by an event of its own.  A deregistration
wakes whoever waits for its task, who has nothing but the task's number.  If he looks before
somebody registers a task under that number again, he is told that there is no such task.  If he
looks later, he cannot tell the one from the other: he waits on, and is told that his task is
dispatched when the new one is.

Main definitions:
* `System.notifies` — an action wakes all who wait;
* `WaitingRoom`, `WaitingRoom.act`, `WaitingRoom.after` — the system with those who wait;
* `WaitingRoom.Bereaves` — an action takes away the record of a task for which somebody waits;
* `WaitingRoom.TurnedAway`, `WaitingRoom.ToldOfSuccessor` — he is told that there is no such task,
  or that all has been stopped; he is told of a task that was registered under the same number.

Main results:
* `System.Kept.unrecorded_act` — only a registration gives a number a record;
* `WaitingRoom.exists_after` — **what becomes of somebody whose task has been taken away**;
* `WaitingRoom.outlived_of_bereaves` — **he is turned away exactly when he has not looked at a
  successor of his task that is dispatched**;
* `WaitingRoom.served_of_reregistration` — a run in which he has.
-/

import Mathlib.Data.List.Induction
import RateMonotonic.Proofs.DepartingCalls
import RateMonotonic.Scheduler.Waiter

set_option relaxedAutoImplicit false
set_option autoImplicit false

namespace RateMonotonic

/-! ### Numbers without a record -/

/-- Only a registration gives a number a record. -/
theorem Activity.Advances.unrecorded {s next : Scheduler} {a rest : Activity}
    (h : a.Advances s next rest) {id : TaskId} (hnone : s.schedule.task? id = none)
    (hother : ∀ e first, a = .enroll e first → e.info.id ≠ id) :
    next.schedule.task? id = none := by
  have hsame : ∀ {q : Schedule}, s.schedule.SameEntries q → q.task? id = none := by
    intro q hq
    have hentry := hq id
    rw [hnone] at hentry
    simpa using hentry
  cases h with
  | release => exact hsame (Schedule.sameEntries_release s.schedule _)
  | @enroll e first _ =>
      have hput : (s.enrolled e first).schedule.task? id =
          if e.info.id = id then some (e.asleep first) else s.schedule.task? id :=
        Schedule.task?_put s.schedule (e.asleep first) id
      rw [hput, if_neg (hother e first rfl)]
      exact hnone
  | @withdraw j =>
      refine (Schedule.task?_withdraw s.schedule j id).trans ?_
      split
      · rfl
      · exact hnone
  | endJob ok => exact hsame (Schedule.yields_of_endJob ok).sameEntries
  | _ => exact hnone

namespace System

variable {y : System} {id : TaskId}

theorem Kept.unrecorded_act (hy : y.Kept) (hnone : y.scheduler.schedule.task? id = none)
    {m : Action} (hm : y.enrolls id m = false) : (y.act m).scheduler.schedule.task? id = none := by
  have hthread : ∀ {next : Scheduler}, Scheduler.Keeps y.scheduler next →
      next.schedule.task? id = none := by
    intro next hkeeps
    have hentry := hkeeps.same id
    rw [hnone] at hentry
    simpa using hentry
  cases m with
  | invoke c => cases c <;> exact hnone
  | advance j resolver now =>
      rcases act_advance y j resolver now with heq | ⟨l, a, r, next, rest, hcalls, hj, hstep, heq⟩
      · rwa [heq]
      · rw [heq]
        have hadvances := Activity.advances_of_step (hy.proper a (by simp [hcalls])) hstep
        refine hadvances.unrecorded hnone fun e first ha => ?_
        rw [ha] at hj
        simpa [enrolls, hj] using hm
  | loop =>
      have hacts := acts_act hy.proper .loop
      generalize y.act .loop = next at hacts
      cases hacts with
      | stutter _ => exact hnone
      | loop hloop => exact hthread (hloop.keeps hy.sound)
  | worker now =>
      have hacts := acts_act hy.proper (.worker now)
      generalize y.act (.worker now) = next at hacts
      cases hacts with
      | stutter _ => exact hnone
      | worker hworker => exact hthread (hworker.keeps hy.sound)

/-- A number without a record has none until it is registered. -/
theorem Kept.unrecorded_after (hy : y.Kept) (hnone : y.scheduler.schedule.task? id = none)
    {run : List Action} (hnobody : y.enrollsIn id run = false) :
    (y.after run).scheduler.schedule.task? id = none := by
  induction run generalizing y with
  | nil => exact hnone
  | cons m run ih =>
      obtain ⟨hm, hrest⟩ := Bool.or_eq_false_iff.1 hnobody
      exact ih (hy.act m) (hy.unrecorded_act hnone hm) hrest

/-- Whether an action wakes all who wait: a task is taken out of the schedule, all scheduling ends,
or a grant is confirmed. -/
def notifies (y : System) : Action → Bool
  | .advance i _ _ =>
      match y.calls[i]? with
      | some (.withdraw _) => true
      | some .halt => true
      | _ => false
  | .loop =>
      match y.scheduler.loop with
      | .applying (.confirm id _) => (y.scheduler.schedule.confirm id).1
      | _ => false
  | _ => false

end System

/-! ### The waiting room -/

/-- The system with those who wait for tasks to be dispatched. -/
structure WaitingRoom where
  system : System
  waiters : List Waiter

namespace WaitingRoom

/-- What happens in the waiting room. -/
inductive Event where
  /-- The system takes an action, and may wake all who wait. -/
  | act (m : Action)
  /-- Somebody comes to wait for a task. -/
  | wait (id : TaskId)
  /-- Somebody is woken, for whatever reason. -/
  | rouse (i : ℕ)
  /-- Somebody who has been woken looks again. -/
  | look (i : ℕ)

/-- The waiting room of a system before anybody has come. -/
def opened (y : System) : WaitingRoom := ⟨y, []⟩

/-- The waiting room after an event. -/
def act (w : WaitingRoom) : Event → WaitingRoom
  | .act m =>
      ⟨w.system.act m, if w.system.notifies m then w.waiters.map Waiter.rouse else w.waiters⟩
  | .wait id => { w with waiters := w.waiters ++ [Waiter.look w.system.scheduler id] }
  | .rouse i => { w with waiters := w.waiters.modify i Waiter.rouse }
  | .look i => { w with waiters := w.waiters.modify i (Waiter.step w.system.scheduler) }

/-- The waiting room after a run of events. -/
def after (w : WaitingRoom) (run : List Event) : WaitingRoom := run.foldl act w

/-- The actions of the system in a run of events. -/
def actions (run : List Event) : List Action :=
  run.filterMap fun
    | .act m => some m
    | _ => none

theorem after_append (w : WaitingRoom) (run more : List Event) :
    w.after (run ++ more) = (w.after run).after more := List.foldl_append

theorem after_concat (w : WaitingRoom) (run : List Event) (k : Event) :
    w.after (run ++ [k]) = (w.after run).act k := after_append w run [k]

theorem after_middle (w : WaitingRoom) (before : List Event) (k : Event) (since : List Event) :
    w.after (before ++ k :: since) = (w.after (before ++ [k])).after since := by
  rw [← after_append]
  simp

/-- The system does not notice who waits. -/
theorem system_after (w : WaitingRoom) (run : List Event) :
    (w.after run).system = w.system.after (actions run) := by
  induction run generalizing w with
  | nil => rfl
  | cons k run ih =>
      refine (ih (w.act k)).trans ?_
      cases k <;> rfl

variable {w : WaitingRoom} {i : ℕ} {id : TaskId} {x : Waiter}

/-- **What an event does to somebody who waits**: nothing, it wakes him, or he looks. -/
theorem getElem?_act (hx : w.waiters[i]? = some x) (k : Event) :
    ((w.act k).waiters[i]? = some x ∧ k ≠ .look i) ∨
      ((w.act k).waiters[i]? = some x.rouse ∧ k ≠ .look i) ∨
        (k = .look i ∧ (w.act k).waiters[i]? = some (x.step w.system.scheduler)) := by
  cases k with
  | act m =>
      simp only [act]
      cases w.system.notifies m with
      | true => exact Or.inr (Or.inl ⟨by simp [hx], by simp⟩)
      | false => exact Or.inl ⟨by simpa using hx, by simp⟩
  | wait j =>
      obtain ⟨hi, -⟩ := List.getElem?_eq_some_iff.1 hx
      exact Or.inl ⟨(List.getElem?_append_left hi).trans hx, by simp⟩
  | rouse j =>
      by_cases hj : j = i
      · exact Or.inr (Or.inl ⟨by simp [act, hj, hx], by simp⟩)
      · exact Or.inl ⟨by simp [act, hj, hx], by simp⟩
  | look j =>
      by_cases hj : j = i
      · exact Or.inr (Or.inr ⟨by rw [hj], by simp [act, hj, hx]⟩)
      · exact Or.inl ⟨by simp [act, hj, hx], by simp [hj]⟩

/-- What somebody has been told he stays told. -/
theorem told_after (htold : x.isTold = true) (hx : w.waiters[i]? = some x) (run : List Event) :
    (w.after run).waiters[i]? = some x := by
  induction run generalizing w with
  | nil => exact hx
  | cons k run ih =>
      refine ih ?_
      rcases getElem?_act hx k with ⟨hsame, -⟩ | ⟨hroused, -⟩ | ⟨-, hlooked⟩
      · exact hsame
      · rwa [Waiter.rouse_of_isTold htold] at hroused
      · rwa [Waiter.step_of_isTold htold] at hlooked

/-! ### Waiting for a task that is taken away -/

/-- Nobody is told that a task is dispatched, or that it is not, without a record of it. -/
theorem dispatched_of_unrecorded {s : Scheduler} (hnone : s.schedule.task? id = none) :
    s.dispatched id = .error .stopped ∨ s.dispatched id = .error (.notFound id) := by
  unfold Scheduler.dispatched
  split
  · exact Or.inl rfl
  · rw [hnone]
    exact Or.inr rfl

/-- The reasons for which somebody is told to wait no more. -/
theorem error_of_dispatched {s : Scheduler} {e : SchedError} (h : s.dispatched id = .error e) :
    e = .notFound id ∨ e = .stopped := by
  unfold Scheduler.dispatched at h
  split at h
  · cases h
    exact Or.inr rfl
  · split at h <;> cases h
    exact Or.inl rfl

/-- An action takes away the record of a task for which somebody waits: it is the section of a
deregistration that does. -/
structure Bereaves (w : WaitingRoom) (m : Action) (i : ℕ) (id : TaskId) : Prop where
  /-- He sleeps, or is about to look again. -/
  waits : w.waiters[i]? = some (.asleep id) ∨ w.waiters[i]? = some (.woken id)
  /-- The call takes the task out of the schedule. -/
  withdraws : ∃ k resolver now, m = .advance k resolver now ∧
    w.system.calls[k]? = some (.withdraw id)

/-- Somebody has not been told that his task is dispatched, and if he has been told anything, it is
that there is no such task or that all has been stopped. -/
structure TurnedAway (w : WaitingRoom) (i : ℕ) (id : TaskId) : Prop where
  unserved : w.waiters[i]? ≠ some (.served id)
  reason : ∀ e, w.waiters[i]? = some (.refused id e) → e = .notFound id ∨ e = .stopped

/-- In a run, somebody looks when a task has been registered under the number of his own, and holds
the slot with its priority raised. -/
def ToldOfSuccessor (w : WaitingRoom) (i : ℕ) (id : TaskId) (run : List Event) : Prop :=
  ∃ more rest, run = more ++ .look i :: rest ∧ (w.after more).waiters[i]? = some (.woken id) ∧
    w.system.enrollsIn id (actions more) = true ∧
      (w.after more).system.scheduler.dispatched id = .ok true

/-- What has become of somebody since his task was taken away. -/
inductive Bereaved (w : WaitingRoom) (i : ℕ) (id : TaskId) (run : List Event) : Waiter → Prop where
  | woken (unlooked : .look i ∉ run ∨ w.system.enrollsIn id (actions run) = true) :
      Bereaved w i id run (.woken id)
  | asleep (again : w.system.enrollsIn id (actions run) = true) : Bereaved w i id run (.asleep id)
  | refused {e : SchedError} (reason : e = .notFound id ∨ e = .stopped) :
      Bereaved w i id run (.refused id e)
  | served (successor : w.ToldOfSuccessor i id run) : Bereaved w i id run (.served id)

/-- What somebody was told about a successor of his task he stays told. -/
theorem ToldOfSuccessor.told {run : List Event} (h : w.ToldOfSuccessor i id run) :
    (w.after run).waiters[i]? = some (.served id) := by
  obtain ⟨more, rest, rfl, hwoken, -, hdispatched⟩ := h
  rw [after_middle]
  refine told_after rfl ?_ rest
  rw [after_append]
  rcases getElem?_act hwoken (.look i) with ⟨-, hne⟩ | ⟨-, hne⟩ | ⟨-, hlooked⟩
  · exact absurd rfl hne
  · exact absurd rfl hne
  · refine hlooked.trans ?_
    simp only [Waiter.step, Waiter.look, hdispatched]

theorem ToldOfSuccessor.snoc {run : List Event} (h : w.ToldOfSuccessor i id run) (k : Event) :
    w.ToldOfSuccessor i id (run ++ [k]) := by
  obtain ⟨more, rest, rfl, hlook⟩ := h
  exact ⟨more, rest ++ [k], by simp, hlook⟩

theorem enrollsIn_actions_append {run : List Event}
    (h : w.system.enrollsIn id (actions run) = true) (more : List Event) :
    w.system.enrollsIn id (actions (run ++ more)) = true := by
  rw [actions, List.filterMap_append, System.enrollsIn_append]
  exact Bool.or_eq_true_iff.2 (Or.inl h)

/-- Somebody looks whose task has been taken away. -/
theorem bereaved_look (hw : w.system.Kept) (hnone : w.system.scheduler.schedule.task? id = none)
    {run : List Event} (hwoken : (w.after run).waiters[i]? = some (.woken id)) :
    w.Bereaved i id (run ++ [.look i]) (Waiter.look (w.after run).system.scheduler id) := by
  cases hagain : w.system.enrollsIn id (actions run) with
  | false =>
      -- Nobody has registered the number again, so there is no record to be found.
      have hunrecorded := hw.unrecorded_after hnone hagain
      rw [← system_after] at hunrecorded
      rcases dispatched_of_unrecorded hunrecorded with heq | heq
      · simp only [Waiter.look, heq]
        exact .refused (Or.inr rfl)
      · simp only [Waiter.look, heq]
        exact .refused (Or.inl rfl)
  | true =>
      cases hdispatched : (w.after run).system.scheduler.dispatched id with
      | error e =>
          simp only [Waiter.look, hdispatched]
          exact .refused (error_of_dispatched hdispatched)
      | ok answer =>
          simp only [Waiter.look, hdispatched]
          cases answer with
          | false => exact .asleep (enrollsIn_actions_append hagain _)
          | true => exact .served ⟨run, [], rfl, hwoken, hagain, hdispatched⟩

/-- **What becomes of somebody whose task has been taken away.** -/
theorem exists_after (hw : w.system.Kept) (hnone : w.system.scheduler.schedule.task? id = none)
    (hwoken : w.waiters[i]? = some (.woken id)) (run : List Event) :
    ∃ x, (w.after run).waiters[i]? = some x ∧ w.Bereaved i id run x := by
  induction run using List.reverseRecOn with
  | nil => exact ⟨_, hwoken, .woken (Or.inl (by simp))⟩
  | append_singleton run k ih =>
      obtain ⟨x, hx, hbereaved⟩ := ih
      have hnext := w.after_concat run k
      rw [hnext]
      rcases getElem?_act hx k with ⟨hsame, hk⟩ | ⟨hroused, hk⟩ | ⟨rfl, hlooked⟩
      · refine ⟨x, hsame, ?_⟩
        cases hbereaved with
        | woken unlooked =>
            refine .woken (unlooked.imp (fun hnot => ?_) (enrollsIn_actions_append · [k]))
            simpa [hnot] using Ne.symm hk
        | asleep again => exact .asleep (enrollsIn_actions_append again [k])
        | refused reason => exact .refused reason
        | served successor => exact .served (successor.snoc k)
      · refine ⟨x.rouse, hroused, ?_⟩
        cases hbereaved with
        | woken unlooked =>
            refine .woken (unlooked.imp (fun hnot => ?_) (enrollsIn_actions_append · [k]))
            simpa [hnot] using Ne.symm hk
        | asleep again => exact .woken (Or.inr (enrollsIn_actions_append again [k]))
        | refused reason => exact .refused reason
        | served successor => exact .served (successor.snoc k)
      · refine ⟨_, hlooked, ?_⟩
        cases hbereaved with
        | woken _ => exact bereaved_look hw hnone hx
        | asleep again => exact .asleep (enrollsIn_actions_append again _)
        | refused reason => exact .refused reason
        | served successor => exact .served (successor.snoc _)

/-- Somebody whose task is taken away is woken, and the task has no record. -/
theorem Bereaves.woken {m : Action} (h : w.Bereaves m i id) :
    (w.act (.act m)).waiters[i]? = some (.woken id) ∧
      (w.act (.act m)).system.scheduler.schedule.task? id = none := by
  obtain ⟨k, resolver, now, rfl, hcall⟩ := h.withdraws
  have hnotifies : w.system.notifies (.advance k resolver now) = true := by
    simp [System.notifies, hcall]
  constructor
  · simp only [act, hnotifies, if_true, List.getElem?_map]
    rcases h.waits with hx | hx <;> rw [hx] <;> rfl
  · have hact : (w.system.act (.advance k resolver now)).scheduler =
        (w.system.scheduler.withdraw id).2 := by
      simp [System.act, hcall, Activity.step]
    simp only [act, hact]
    exact (Schedule.task?_withdraw w.system.scheduler.schedule id id).trans (if_pos rfl)

/-- What becomes of somebody when the task for which he waits is deregistered. -/
structure Outlived (w : WaitingRoom) (before : List Event) (m : Action) (since : List Event) (i : ℕ)
    (id : TaskId) : Prop where
  /-- He is woken at once. -/
  woken : (w.after (before ++ [.act m])).waiters[i]? = some (.woken id)
  /-- If he looks before somebody registers the number again, he is turned away. -/
  prompt : .look i ∈ since →
    (w.after (before ++ [.act m])).system.enrollsIn id (actions since) = false →
      ∃ e, (w.after (before ++ .act m :: since)).waiters[i]? = some (.refused id e) ∧
        (e = .notFound id ∨ e = .stopped)
  /-- He is turned away, whenever he looks, unless he is told of a successor. -/
  turnedAway_iff : (w.after (before ++ .act m :: since)).TurnedAway i id ↔
    ¬ (w.after (before ++ [.act m])).ToldOfSuccessor i id since

/-- **Somebody whose task is deregistered is turned away**, unless he has been told of a
successor. -/
theorem outlived_of_bereaves {c : Config} {s : Scheduler} (hs : Scheduler.new c = .ok s)
    {before since : List Event} {m : Action}
    (hbereaves : ((opened (System.idle s)).after before).Bereaves m i id) :
    (opened (System.idle s)).Outlived before m since i id := by
  obtain ⟨-, rfl⟩ := Scheduler.new_eq_ok hs
  have hstart := after_concat (opened (System.idle (Scheduler.ofConfig c))) before (.act m)
  have hmiddle := after_middle (opened (System.idle (Scheduler.ofConfig c))) before (.act m) since
  obtain ⟨hwoken, hnone⟩ := hbereaves.woken
  have hkept : ((opened (System.idle (Scheduler.ofConfig c))).after
      (before ++ [.act m])).system.Kept := by
    rw [system_after]
    exact (System.kept_idle c).after _
  rw [← hstart] at hwoken hnone
  obtain ⟨x, hx, hbereaved⟩ := exists_after hkept hnone hwoken since
  rw [← hmiddle] at hx
  refine ⟨hwoken, fun hlook hnobody => ?_, fun hturned hsuccessor => ?_,
    fun hnot => ⟨fun hserved => ?_, fun e hrefused => ?_⟩⟩
  · cases hbereaved with
    | woken unlooked =>
        rcases unlooked with hnever | hagain
        · exact absurd hlook hnever
        · rw [hnobody] at hagain
          cases hagain
    | asleep again =>
        rw [hnobody] at again
        cases again
    | refused reason => exact ⟨_, hx, reason⟩
    | served successor =>
        obtain ⟨more, rest, rfl, -, hagain, -⟩ := successor
        rw [enrollsIn_actions_append hagain] at hnobody
        cases hnobody
  · have hserved := hsuccessor.told
    rw [← hmiddle] at hserved
    exact hturned.unserved hserved
  · rw [hx] at hserved
    cases hserved
    cases hbereaved with
    | served successor => exact hnot successor
  · rw [hx] at hrefused
    cases hrefused
    cases hbereaved with
    | refused reason => exact reason

/-- The waiting room of a scheduler that nobody has called yet. -/
def lobby : WaitingRoom := opened (System.idle (Scheduler.ofConfig Config.default))

/-- Actions of the system, one after the other. -/
def acts (run : List Action) : List Event := run.map .act

/-- A task is registered and the loop is started; somebody waits for the task, and a deregistration
is about to take the task out of the schedule. -/
def bereaving : List Event :=
  acts (.invoke (.register ⟨⟨1⟩, Duration.ofMillis 100, Duration.ofMillis 1⟩) ::
      System.sections 0 4 Instant.start ++
    .invoke .start :: System.sections 1 3 Instant.start) ++
  .wait ⟨1⟩ :: acts (.invoke (.deregister ⟨1⟩) :: System.sections 2 3 Instant.start)

/-- The section that takes the task out of the schedule. -/
def withdrawal : Action := .advance 2 (fun id => some ⟨id.number⟩) Instant.start

/-- The deregistration ends, and he who waits looks. -/
def promptLook : List Event := acts (System.sections 2 2 Instant.start) ++ [.look 0]

/-- An instant at which first releases are due. -/
def alarm : Instant := ⟨2000000000, by decide, by decide⟩

/-- The deregistration ends, a task is registered under the same number, its timer releases it, and
the loop grants the slot to it, raises its priority and confirms the grant.  Then he looks who waits
for the other. -/
def lateLook : List Event :=
  acts (System.sections 2 2 Instant.start ++
    .invoke (.register ⟨⟨1⟩, Duration.ofMillis 100, Duration.ofMillis 1⟩) ::
      System.sections 3 4 Instant.start ++
    List.replicate 4 (.worker alarm) ++ List.replicate 5 .loop) ++ [.look 0]

theorem outlived_of_promptLook :
    (lobby.after bereaving).Bereaves withdrawal 0 ⟨1⟩ ∧
      lobby.Outlived bereaving withdrawal promptLook 0 ⟨1⟩ ∧
      (lobby.after (bereaving ++ .act withdrawal :: promptLook)).waiters[0]? =
        some (.refused ⟨1⟩ (.notFound ⟨1⟩)) := by
  have hbereaves : (lobby.after bereaving).Bereaves withdrawal 0 ⟨1⟩ :=
    ⟨Or.inl (by decide), 2, _, Instant.start, rfl, rfl⟩
  exact ⟨hbereaves, outlived_of_bereaves (c := Config.default) rfl hbereaves, by decide⟩

/-- **Somebody whose task has been deregistered is told that it is dispatched**, when he looks after
another task has been registered and dispatched under its number. -/
theorem served_of_reregistration :
    (lobby.after bereaving).waiters[0]? = some (.asleep ⟨1⟩) ∧
      (lobby.after bereaving).Bereaves withdrawal 0 ⟨1⟩ ∧
      (lobby.after (bereaving ++ .act withdrawal :: lateLook)).system.calls[2]? =
        some (.answered (.ok (.deregistered ⟨1⟩))) ∧
      (lobby.after (bereaving ++ .act withdrawal :: lateLook)).waiters[0]? = some (.served ⟨1⟩) ∧
      ¬ (lobby.after (bereaving ++ .act withdrawal :: lateLook)).TurnedAway 0 ⟨1⟩ := by
  have hasleep : (lobby.after bereaving).waiters[0]? = some (.asleep ⟨1⟩) := by decide
  have hserved : (lobby.after (bereaving ++ .act withdrawal :: lateLook)).waiters[0]? =
      some (.served ⟨1⟩) := by decide
  exact ⟨hasleep, ⟨Or.inl hasleep, 2, _, Instant.start, rfl, rfl⟩, rfl, hserved,
    fun hturned => hturned.unserved hserved⟩

end WaitingRoom

end RateMonotonic
