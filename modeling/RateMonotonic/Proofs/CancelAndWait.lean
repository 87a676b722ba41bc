/-
**What a cancellation that waits has ended.**

A client's cancellation removes the pending timer first and then waits, without holding the timers,
until no callback of its key runs.  It does not look at the pending timers again.  So a callback that
runs meanwhile may arm the key anew, its own callback before all others, and that timer is still there
when the cancellation returns.  Nothing else can go wrong: where no callback has left such a timer, the
cancellation has ended the key, and no callback of it starts before somebody arms it again.

Main definitions:
* `TimerSystem.hasReturned`, `TimerSystem.Returns` — when a cancellation returns;
* `TimerSystem.Ended` — no callback of a key runs or is going to run;
* `TimerSystem.Rearmed` — a callback has armed a key, and that timer is pending still.

Main results:
* `TimerSystem.Returns.inFlight_ne` — no callback of the key runs when its cancellation returns;
* `TimerSystem.deadline?_eq_none_after` — a key that is not pending stays so until it is armed;
* `TimerSystem.ended_iff` — **a cancellation has ended its key exactly when no callback has armed it
  anew**;
* `TimerSystem.not_ended_of_selfArming` — a callback that arms its own key outlives the cancellation.
-/

import RateMonotonic.Proofs.TimerAgenda

set_option relaxedAutoImplicit false
set_option autoImplicit false

namespace RateMonotonic

variable {κ : Type} [DecidableEq κ]

namespace TimerSystem

variable {s : TimerSystem κ} {key : κ}

/-! ### Who arms a key -/

/-- Only clients and callbacks arm a key. -/
theorem arms_of_touch {e : TimerEvent κ} {d : Instant} (h : s.touch key e = some (some d)) :
    e = .arm key d ∨ e = .armWithin key d := by
  cases e with
  | arm k t =>
      simp only [touch] at h
      split at h
      · next hk =>
          cases h
          exact Or.inl (by rw [hk.1])
      · cases h
  | armWithin k t =>
      simp only [touch] at h
      split at h
      · next hk =>
          cases h
          exact Or.inr (by rw [hk.1])
      · cases h
  | cancel k =>
      simp only [touch] at h
      split at h <;> cases h
  | cancelWithin k =>
      simp only [touch] at h
      split at h <;> cases h
  | turn now =>
      simp only [touch] at h
      split at h <;> cases h
  | recheck i => cases h
  | shutdown => cases h

/-- **A key that is not pending stays so** until it is armed. -/
theorem deadline?_eq_none_after (h : s.timers.Tidy) (hnone : s.timers.deadline? key = none)
    {run : List (TimerEvent κ)} (hrun : ∀ d, .arm key d ∉ run ∧ .armWithin key d ∉ run) :
    (s.after run).timers.deadline? key = none := by
  rw [Option.eq_none_iff_forall_ne_some]
  intro d hd
  rcases (deadline?_after_iff h).1 hd with ⟨hbefore, -⟩ | ⟨before, e, since, rfl, he, -⟩
  · rw [hnone] at hbefore
    cases hbefore
  · rcases arms_of_touch he with rfl | rfl
    · exact (hrun d).1 (by simp)
    · exact (hrun d).2 (by simp)

/-! ### The return of a cancellation -/

/-- A cancellation returns when it looks and no callback of its key runs. -/
theorem cancellations_act {i : Nat} {c : Cancellation κ} (h : s.cancellations[i]? = some c)
    (e : TimerEvent κ) :
    (s.act e).cancellations[i]? =
      some { c with
        returned := c.returned || (decide (e = .recheck i) && s.timers.cancelMayReturn c.key) } := by
  cases e with
  | cancel k =>
      obtain ⟨hi, -⟩ := List.getElem?_eq_some_iff.1 h
      simp [act, List.getElem?_append_left hi, h]
  | recheck j =>
      by_cases hj : j = i
      · simp [act, hj, h]
      · simp [act, hj, h]
  | armWithin k d =>
      simp only [act]
      split <;> simp [h]
  | cancelWithin k =>
      simp only [act]
      split <;> simp [h]
  | _ => simp [act, h]

/-- The cancellation that a client has begun after a run. -/
def cancellation? (key : κ) (before since : List (TimerEvent κ)) : Option (Cancellation κ) :=
  (empty.after (before ++ .cancel key :: since)).cancellations[
    (empty.after before).cancellations.length]?

theorem cancellation?_nil (key : κ) (before : List (TimerEvent κ)) :
    cancellation? key before [] =
      some ⟨key, (empty.after before).timers.isArmed key,
        (empty.after before).timers.cancelMayReturn key⟩ := by
  simp [cancellation?, after_concat, act]

theorem cancellation?_concat {before since : List (TimerEvent κ)} {c : Cancellation κ}
    (h : cancellation? key before since = some c) (e : TimerEvent κ) :
    cancellation? key before (since ++ [e]) =
      some { c with
        returned := c.returned ||
          (decide (e = .recheck (empty.after before).cancellations.length) &&
            (empty.after (before ++ .cancel key :: since)).timers.cancelMayReturn c.key) } := by
  rw [cancellation?, ← List.cons_append, ← List.append_assoc, after_concat]
  exact cancellations_act h e

theorem exists_cancellation? (key : κ) (before since : List (TimerEvent κ)) :
    ∃ c, cancellation? key before since = some c ∧ c.key = key := by
  induction since using List.reverseRecOn with
  | nil => exact ⟨_, cancellation?_nil key before, rfl⟩
  | append_singleton since e ih =>
      obtain ⟨c, hc, hkey⟩ := ih
      exact ⟨_, cancellation?_concat hc e, hkey⟩

/-- Whether the cancellation that a client has begun after a run has returned. -/
def hasReturned (key : κ) (before since : List (TimerEvent κ)) : Bool :=
  (cancellation? key before since).any (·.returned)

/-- **A cancellation returns** at the end of what happens since it was begun. -/
structure Returns (key : κ) (before since : List (TimerEvent κ)) : Prop where
  returned : hasReturned key before since = true
  /-- It has not returned before. -/
  first : ∀ n < since.length, hasReturned key before (since.take n) = false

/-- **No callback of the key runs** when its cancellation returns. -/
theorem Returns.inFlight_ne {before since : List (TimerEvent κ)} (h : Returns key before since) :
    (empty.after (before ++ .cancel key :: since)).timers.inFlight ≠ some key := by
  have hreturned := h.returned
  rcases List.eq_nil_or_concat since with rfl | ⟨init, e, rfl⟩
  · -- It has not had to wait.
    rw [hasReturned, cancellation?_nil] at hreturned
    rw [after_concat]
    exact of_decide_eq_true hreturned
  · -- It has looked again, and a look changes nothing.
    rw [List.concat_eq_append] at h hreturned ⊢
    obtain ⟨c, hc, hkey⟩ := exists_cancellation? key before init
    have hwaits := h.first init.length (by simp)
    rw [List.take_left', hasReturned, hc] at hwaits
    · rw [hasReturned, cancellation?_concat hc e] at hreturned
      simp only [Option.any_some] at hwaits hreturned
      rw [hwaits, Bool.false_or, Bool.and_eq_true, decide_eq_true_eq, hkey] at hreturned
      obtain ⟨rfl, hmay⟩ := hreturned
      rw [← List.cons_append, ← List.append_assoc, after_concat, timers_act_recheck]
      exact of_decide_eq_true hmay
    · rfl

/-! ### What has ended -/

/-- **No callback of a key runs, nor is going to run** before somebody arms the key. -/
structure Ended (s : TimerSystem κ) (key : κ) : Prop where
  /-- No callback of the key runs. -/
  idle : s.timers.inFlight ≠ some key
  /-- The key is not pending. -/
  disarmed : s.timers.isArmed key = false
  /-- No callback of the key starts in a run in which nobody arms it. -/
  silent : ∀ run, (∀ d, .arm key d ∉ run ∧ .armWithin key d ∉ run) →
    ∀ now, (s.after run).reply (.turn now) ≠ .fired (some key)

/-- A callback has armed a key, and nothing has happened to that timer since. -/
def Rearmed (s : TimerSystem κ) (key : κ) (run : List (TimerEvent κ)) : Prop :=
  ∃ before d since, run = before ++ .armWithin key d :: since ∧
    (s.after before).touch key (.armWithin key d) = some (some d) ∧
      (s.after (before ++ [.armWithin key d])).Untouched key since

/-- A key that is neither pending nor in flight has ended. -/
theorem ended_of_disarmed (h : s.timers.Tidy) (hidle : s.timers.inFlight ≠ some key)
    (hnone : s.timers.deadline? key = none) : s.Ended key := by
  refine ⟨hidle, ?_, fun run hrun now hfired => ?_⟩
  · rw [← Bool.not_eq_true, Timers.isArmed_iff, hnone]
    rintro ⟨d, hd⟩
    cases hd
  · obtain ⟨d, hd, -⟩ := deadline?_of_fired hfired
    rw [deadline?_eq_none_after h hnone hrun] at hd
    cases hd

/-- What is pending at the end, after a time in which no client has armed it, was armed by a
callback. -/
theorem rearmed_iff (h : s.timers.Tidy) (hnone : s.timers.deadline? key = none)
    {run : List (TimerEvent κ)} (hclients : ∀ d, .arm key d ∉ run) :
    s.Rearmed key run ↔ ∃ d, (s.after run).timers.deadline? key = some d := by
  constructor
  · rintro ⟨before, d, since, rfl, harm, hsince⟩
    exact ⟨d, (deadline?_after_iff h).2 (Or.inr ⟨before, _, since, rfl, harm, hsince⟩)⟩
  · rintro ⟨d, hd⟩
    rcases (deadline?_after_iff h).1 hd with ⟨hbefore, -⟩ | ⟨before, e, since, rfl, he, hsince⟩
    · rw [hnone] at hbefore
      cases hbefore
    · rcases arms_of_touch he with rfl | rfl
      · exact absurd (List.mem_append_right _ List.mem_cons_self) (hclients d)
      · exact ⟨before, d, since, rfl, he, hsince⟩

/-- **A cancellation has ended its key exactly when no callback has armed it anew** since it was
begun. -/
theorem ended_iff {before since : List (TimerEvent κ)} (hreturns : Returns key before since)
    (hclients : ∀ d, .arm key d ∉ since) :
    (empty.after (before ++ .cancel key :: since)).Ended key ↔
      ¬ (empty.after (before ++ [.cancel key])).Rearmed key since := by
  have hsplit : before ++ .cancel key :: since = before ++ [.cancel key] ++ since := by simp
  have hidle := hreturns.inFlight_ne
  rw [hsplit, after_append] at hidle ⊢
  have htidy : (empty.after (before ++ [.cancel key])).timers.Tidy :=
    tidy_after Timers.tidy_empty _
  -- The cancellation begins by removing the timer.
  have hnone : (empty.after (before ++ [.cancel key])).timers.deadline? key = none := by
    rw [after_concat, deadline?_act (tidy_after Timers.tidy_empty before)]
    simp [touch]
  rw [rearmed_iff htidy hnone hclients]
  constructor
  · intro hended hpending
    have hdisarmed := hended.disarmed
    rw [Timers.isArmed_iff.2 hpending] at hdisarmed
    cases hdisarmed
  · intro hpending
    refine ended_of_disarmed (tidy_after htidy since) hidle ?_
    rw [Option.eq_none_iff_forall_ne_some]
    exact fun d hd => hpending ⟨d, hd⟩

/-- A callback is running. -/
def firing : List (TimerEvent ℕ) := [.arm 1 Instant.start, .turn Instant.start]

/-- The callback arms another key and ends. -/
def otherArming : List (TimerEvent ℕ) :=
  [.armWithin 2 ⟨10, by decide, by decide⟩, .turn Instant.start, .recheck 0]

/-- The callback arms its own key and ends. -/
def selfArming : List (TimerEvent ℕ) :=
  [.armWithin 1 ⟨10, by decide, by decide⟩, .turn Instant.start, .recheck 0]

theorem ended_of_otherArming :
    Returns 1 firing otherArming ∧ (∀ d, .arm 1 d ∉ otherArming) ∧
      (empty.after (firing ++ .cancel 1 :: otherArming)).Ended 1 := by
  have hreturns : Returns 1 firing otherArming := ⟨by decide, by decide⟩
  have hclients : ∀ d, .arm 1 d ∉ otherArming := by simp [otherArming]
  refine ⟨hreturns, hclients, (ended_iff hreturns hclients).2 ?_⟩
  rintro ⟨before, d, since, heq, -⟩
  have hmem : .armWithin 1 d ∈ otherArming := by rw [heq]; simp
  simp [otherArming] at hmem

/-- **A callback that arms its own key outlives the cancellation** that has waited for it: the key is
pending when the cancellation returns, and fires after that. -/
theorem not_ended_of_selfArming :
    Returns 1 firing selfArming ∧ (∀ d, .arm 1 d ∉ selfArming) ∧
      ¬ (empty.after (firing ++ .cancel 1 :: selfArming)).Ended 1 ∧
        (empty.after (firing ++ .cancel 1 :: selfArming)).reply
          (.turn ⟨10, by decide, by decide⟩) = .fired (some 1) := by
  refine ⟨⟨by decide, by decide⟩, by simp [selfArming], fun hended => ?_, by decide⟩
  exact absurd hended.disarmed (by decide)

end TimerSystem

end RateMonotonic
