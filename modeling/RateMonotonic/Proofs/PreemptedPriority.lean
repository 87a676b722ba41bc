/-
**The priority of those who lost the slot.**

A task that loses the slot to another is reset by the round that took the slot from it, and by nobody
else: a job that waits in the queue is not elevated, and ending it calls for no reset.  So as long as
no two tasks share a handle, the handle of a task that was preempted is raised only while that round
still has its first step to take.

Main definitions:
* `Schedule.DistinctHandles` — no two tasks have the same handle;
* `System.PreemptedLow` — a preempted task is not raised, or is about to be reset.

Main results:
* `Activity.Advances.preempted`, `Schedule.Evaluates.preempted` — only an evaluation preempts, and
  only the slot's holder;
* `System.PreemptedLow.act` — **no action leaves a preempted task raised**, except for the evaluation
  whose round resets it next;
* `System.preemptedLow_after` — so it is after every run.
-/

import RateMonotonic.Proofs.Requests
import RateMonotonic.Proofs.StartedJobs

set_option relaxedAutoImplicit false
set_option autoImplicit false

namespace RateMonotonic

/-! ### Handles -/

namespace Schedule

variable {s next : Schedule} {j : TaskId} {u : Task}

/-- No two tasks have the same handle. -/
def DistinctHandles (s : Schedule) : Prop := (s.tasks.pairs.map fun x => x.2.handle).Nodup

instance (s : Schedule) : Decidable s.DistinctHandles :=
  inferInstanceAs (Decidable (s.tasks.pairs.map fun x => x.2.handle).Nodup)

theorem DistinctHandles.eq (h : s.DistinctHandles) {i : TaskId} {t : Task}
    (hi : s.task? i = some t) (hj : s.task? j = some u) (heq : t.handle = u.handle) : i = j :=
  congrArg Prod.fst
    (List.inj_on_of_nodup_map h (Table.mem_pairs_iff.2 hi) (Table.mem_pairs_iff.2 hj) heq)

/-! ### Who is preempted -/

theorem Preempted.of_release {id : TaskId} (h : (s.release id).2.Preempted j u) :
    s.Preempted j u := by
  rcases release_cases s id with ⟨t, -, -, heq⟩ | ⟨-, heq⟩
  · rw [heq] at h
    exact (Preempted.of_store (fun _ => rfl) h).2
  · rwa [heq] at h

theorem Preempted.of_put {e : RegistryEntry} {first : Instant}
    (h : (s.put (e.asleep first)).Preempted j u) : s.Preempted j u := by
  have hsleep : (e.asleep first).state = .ready → (e.asleep first).jobPending = true := by
    simp [RegistryEntry.asleep, Task.sleepingUntil]
  exact (Preempted.of_store hsleep h).2

theorem Preempted.of_withdraw {id : TaskId} (h : (s.withdraw id).2.Preempted j u) :
    s.Preempted j u := by
  obtain ⟨hu, hready⟩ := h
  rw [task?_withdraw] at hu
  split at hu
  · cases hu
  · exact ⟨hu, hready⟩

theorem Preempted.of_yields {id : TaskId} {now : Instant} {y : YieldResult}
    (hy : s.Yields id now y next) (h : next.Preempted j u) : s.Preempted j u := by
  cases hy with
  | nothing _ _ => exact h
  | sleep _ _ _ => exact (Preempted.of_store (by simp [Task.sleep]) h).2
  | requeue _ _ _ => exact (Preempted.of_store (fun _ => rfl) h).2

theorem Preempted.of_confirm (hs : s.Sound) {id : TaskId} (h : (s.confirm id).2.Preempted j u) :
    s.Preempted j u := by
  rcases hs.confirm_cases id with ⟨t, -, -, -, hrun, heq⟩ | ⟨-, heq⟩
  · rw [heq] at h
    exact (Preempted.of_store (by simp [Task.resume, hrun]) h).2
  · rwa [heq] at h

/-- An evaluation preempts nobody but the slot's holder, and whoever has the slot after it is not
preempted. -/
theorem Evaluates.preempted {d : Decision} (h : s.Evaluates d next) (hu : next.Preempted j u) :
    s.Preempted j u ∨ ∃ head handle, d = .preempt j u.handle head handle := by
  cases h with
  | idle _ => exact Or.inl hu
  | keep _ _ _ _ _ => exact Or.inl hu
  | grant _ _ _ _ _ _ => exact Or.inl (Preempted.of_store (by simp) hu).2
  | @preempt running head t v p rest _ _ _ _ _ _ _ _ _ =>
      obtain ⟨hget, hready, hstarted⟩ := hu
      rw [task?_displace] at hget
      split at hget
      · cases hget
        simp at hready
      · split at hget
        · next heq =>
            cases hget
            exact Or.inr ⟨head, v.handle, by rw [heq]; rfl⟩
        · exact Or.inl ⟨hget, hready, hstarted⟩

/-- A job in progress holds the slot or was preempted. -/
theorem preempted_of_inProgress {t : Task} (ht : s.task? j = some t)
    (hbusy : s.inProgress j t = true) (hslot : s.holdsSlot j = false) : s.Preempted j t := by
  cases hstate : t.state with
  | sleeping => simp [inProgress, hstate] at hbusy
  | running => simp [inProgress, hstate, hslot] at hbusy
  | ready =>
      simp only [inProgress, hstate, Bool.not_eq_true'] at hbusy
      exact ⟨ht, hstate, hbusy⟩

/-- Whoever ends a job frees the slot or was preempted. -/
theorem Yields.freed_or_preempted {now : Instant} {y : YieldResult} (h : s.Yields j now y next)
    (hended : Scheduler.endedJob y.outcome = true) :
    y.freedSlot = true ∨ ∃ t, s.Preempted j t ∧ t.handle = y.handle := by
  cases h with
  | nothing _ _ => cases hended
  | @sleep t _ task busy _ =>
      cases hslot : s.holdsSlot j with
      | true => exact Or.inl rfl
      | false => exact Or.inr ⟨t, preempted_of_inProgress task busy hslot, rfl⟩
  | @requeue t task busy _ =>
      cases hslot : s.holdsSlot j with
      | true => exact Or.inl rfl
      | false => exact Or.inr ⟨t, preempted_of_inProgress task busy hslot, rfl⟩

end Schedule

/-- No call preempts anybody. -/
theorem Activity.Advances.preempted {s next : Scheduler} {a rest : Activity}
    (h : a.Advances s next rest) {j : TaskId} {u : Task} (hu : next.schedule.Preempted j u) :
    s.schedule.Preempted j u := by
  cases h with
  | release => exact hu.of_release
  | enroll _ => exact hu.of_put
  | withdraw => exact hu.of_withdraw
  | endJob ok => exact hu.of_yields (Schedule.yields_of_endJob ok)
  | _ => exact hu

/-! ### Who is raised -/

/-- Whoever an evaluation grants the slot to is running after it. -/
theorem running_of_evaluates {s next : Schedule} {d : Decision} (h : s.Evaluates d next)
    {r : Round} (hr : Round.ofDecision d = some r) {id : TaskId} {k : ExecHandle}
    (hgrantee : r.grantee = some (id, k)) :
    ∃ t, next.task? id = some t ∧ t.state = .running ∧ t.handle = k := by
  cases h with
  | idle _ => cases hr
  | keep _ _ _ _ _ => cases hr
  | @grant head u _ _ _ _ _ _ _ _ =>
      cases hr
      cases hgrantee
      exact ⟨u.grant, Schedule.task?_award_self s _ u, by simp, by simp⟩
  | @preempt running head t u _ _ _ _ _ _ _ _ _ _ _ =>
      cases hr
      cases hgrantee
      exact ⟨u.grant, Schedule.task?_displace_head s running _ t u, by simp, by simp⟩

namespace System

variable {y : System}

/-- Whoever the next step of the loop grants the slot to is running after it. -/
theorem Grants.running {id : TaskId} {k : ExecHandle} (h : y.Grants id k) (hy : y.Kept) :
    ∃ t, y.scheduler.schedule.evaluate.2.task? id = some t ∧ t.state = .running ∧ t.handle = k := by
  obtain ⟨-, r, hround, hgrantee⟩ := h
  exact running_of_evaluates hy.sound.evaluates hround hgrantee

/-- Whoever the next step of the loop grants the slot to has the handle that is to be elevated. -/
theorem Grants.recorded {id : TaskId} {k : ExecHandle} (h : y.Grants id k) (hy : y.Kept) :
    ∃ t, y.scheduler.schedule.task? id = some t ∧ t.handle = k := by
  obtain ⟨t, ht, -, hhandle⟩ := h.running hy
  have hsame := hy.sound.sameEntries_evaluate id
  rw [ht] at hsame
  obtain ⟨u, hu, hentry⟩ := Option.map_eq_some_iff.1 hsame.symm
  exact ⟨u, hu, (congrArg RegistryEntry.handle hentry).trans hhandle⟩

/-- Only an evaluation preempts, and then the loop is about to reset whoever lost the slot. -/
theorem preempted_act (hy : y.Kept) {m : Action} {j : TaskId} {u : Task}
    (hu : (y.act m).scheduler.schedule.Preempted j u) :
    y.scheduler.schedule.Preempted j u ∨
      (y.scheduler.loop = .cleared ∧ (y.act m).scheduler.loop.demoting u.handle = true) := by
  have hacts := acts_act hy.proper m
  generalize y.act m = next at hacts hu
  cases hacts with
  | stutter _ => exact Or.inl hu
  | invoke _ => exact Or.inl hu
  | advance _ ha => exact Or.inl (ha.preempted hu)
  | loop hloop =>
      cases hloop with
      | evaluate cleared =>
          refine (hy.sound.evaluates.preempted hu).imp_right ?_
          rintro ⟨head, handle, hd⟩
          exact ⟨cleared, by simp [hd, Round.ofDecision, Scheduler.loopAfter, LoopState.demoting]⟩
      | @apply q _ =>
          have hstep : (q.step y.scheduler.dispatcher).1.schedule.Preempted j u := hu
          refine Or.inl ?_
          rcases Scheduler.schedule_step y.scheduler.dispatcher q with heq | ⟨id, heq⟩ <;>
            rw [heq] at hstep
          · exact hstep
          · exact Schedule.Preempted.of_confirm hy.sound hstep
      | _ => exact Or.inl hu
  | worker hworker =>
      cases hworker with
      | release _ => exact Or.inl hu.of_release
      | _ => exact Or.inl hu

/-- A task that was preempted is not about to be elevated, and not raised unless it is about to be
reset. -/
def PreemptedLow (y : System) : Prop :=
  ∀ j u, y.scheduler.schedule.Preempted j u →
    y.scheduler.loop.raising u.handle = false ∧
      (y.scheduler.dispatcher.priorities.raised u.handle = true →
        y.scheduler.loop.demoting u.handle = true)

/-- A loop that is about to reset a handle does nothing else to it. -/
theorem demoting_act (hr : y.OneRound) (hy : y.Kept) {k : ExecHandle}
    (hdemoting : y.scheduler.loop.demoting k = true) (m : Action) :
    (m ≠ .loop ∧ (y.act m).scheduler.loop = y.scheduler.loop) ∨
      (y.act m).scheduler.dispatcher.priorities.raised k = false := by
  cases hl : y.scheduler.loop with
  | applying r =>
      rw [hl] at hdemoting
      rcases hr.round_act hy hl m with hstays | ⟨-, hsteps⟩
      · exact Or.inl hstays
      · cases r with
        | demote preempted task handle =>
            rw [hsteps, ← of_decide_eq_true hdemoting]
            exact Or.inr ((PriorityLog.raised_reset _ preempted preempted).trans (if_pos rfl))
        | _ => cases hdemoting
  | _ =>
      rw [hl] at hdemoting
      cases hdemoting

/-- **No action leaves a preempted task raised**, except for the evaluation whose round resets it
next. -/
theorem PreemptedLow.act (h : y.PreemptedLow) (hr : y.OneRound) (hy : y.Kept) (m : Action)
    (hdistinct : (y.act m).scheduler.schedule.DistinctHandles) : (y.act m).PreemptedLow := by
  intro j u hu
  have hnew := preempted_act hy hu
  -- Nobody who waits was about to be elevated: it was not evaluated then, or waited already.
  have hbefore : y.scheduler.loop.raising u.handle = false := by
    rcases hnew with hwaits | ⟨cleared, -⟩
    · exact (h j u hwaits).1
    · rw [cleared]
      rfl
  constructor
  · rw [← Bool.not_eq_true]
    intro hraising
    rcases raising_act hy hraising with ⟨rfl, id, hgrants, -⟩ | ⟨hagain, -⟩
    · -- The slot was granted to another task, which does not wait.
      obtain ⟨t, ht, hrun, hhandle⟩ := hgrants.running hy
      have hnext : (y.act .loop).scheduler.schedule = y.scheduler.schedule.evaluate.2 := by
        simp [System.act, Scheduler.loopStep, hgrants.1]
        rfl
      rw [← hnext] at ht
      obtain rfl := hdistinct.eq ht hu.1 hhandle
      rw [hu.1] at ht
      cases ht
      rw [hu.2.1] at hrun
      cases hrun
    · rw [hbefore] at hagain
      cases hagain
  · intro hraised
    rcases requests_act hy u.handle m with helevates | hlow | hsame
    · obtain ⟨-, id, applying⟩ := elevates_iff.1 helevates
      rw [applying] at hbefore
      exact absurd rfl (of_decide_eq_false hbefore)
    · rw [hlow] at hraised
      cases hraised
    · rcases hnew with hwaits | ⟨-, hdemoting⟩
      · have hdemoting := (h j u hwaits).2 ((PriorityLog.raised_congr hsame).symm.trans hraised)
        rcases demoting_act hr hy hdemoting m with ⟨-, hloop⟩ | hlow
        · exact hloop ▸ hdemoting
        · rw [hlow] at hraised
          cases hraised
      · exact hdemoting

/-- **Whoever was preempted is not raised for long**: so it is after every run in which no two tasks
share a handle. -/
theorem preemptedLow_after (c : Config) (run : List Action)
    (hdistinct : ∀ before, before <+: run →
      ((idle (Scheduler.ofConfig c)).after before).scheduler.schedule.DistinctHandles) :
    ((idle (Scheduler.ofConfig c)).after run).PreemptedLow := by
  have hidle : (idle (Scheduler.ofConfig c)).PreemptedLow := fun j u hu => by cases hu.1
  refine (kept_idle c).history (Q := fun run => ((idle (Scheduler.ofConfig c)).after run).PreemptedLow)
    run hidle fun before m hmore hkept hlow => ?_
  have hnext := hdistinct _ hmore
  rw [after_append] at hnext ⊢
  exact hlow.act ((oneRound_idle c).after (kept_idle c) before) hkept m hnext

end System

end RateMonotonic
