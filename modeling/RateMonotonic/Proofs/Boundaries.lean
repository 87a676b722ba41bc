/-
**A task's boundaries, and what moves them.**

From its first release on, a task's boundaries are one period apart, up to the end of the clock.
The record of a task holds the next one.  It moves on when a job starts, that is at the job's first
grant, and at no other step: so it tells how many jobs have started, and together with the flag of a
pending job how many have been released.

Main definitions:
* `Instant.Shows`, `Instant.boundary` — the boundaries on the clock, and the one after so many
  periods;
* `tally` — how often something happens in a run;
* `Task.Goes` — what one step can do to a task's job and boundary;
* `Task.Counted` — a record after so many releases and starts;
* `Schedule.starts` — whose job an evaluation starts.

Main results:
* `Instant.nanos_boundary` — **a boundary is a whole number of periods after the first release**;
* `Schedule.goes_release`, `Schedule.Sound.goes_evaluate`, `Schedule.Yields.goes` and others — one
  lemma for each step of the schedule;
* `Task.Counted.goes` — **every step keeps count**.
-/

import Mathlib.Order.Bounds.Basic
import Mathlib.Tactic.Linarith
import Mathlib.Tactic.Positivity
import Mathlib.Tactic.Ring
import RateMonotonic.Proofs.RegistryAgreement

set_option relaxedAutoImplicit false
set_option autoImplicit false

namespace RateMonotonic

/-! ### Boundaries -/

namespace Instant

/-- Whether the clock shows the boundary so many periods after the first. -/
def Shows (first : Instant) (period : Duration) (k : ℕ) : Prop :=
  ∃ i : Instant, i.nanos = first.nanos + k * period.nanos

/-- The boundary so many periods after the first; where the clock ends, it stays. -/
def boundary (first : Instant) (period : Duration) : ℕ → Instant
  | 0 => first
  | k + 1 => ((boundary first period k).add? period).getD (boundary first period k)

variable {first : Instant} {period : Duration}

theorem shows_iff {k : ℕ} :
    first.Shows period k ↔ first.nanos + k * period.nanos < 2 ^ 63 * 10 ^ 9 := by
  have hlow := first.le_nanos
  constructor
  · rintro ⟨i, hi⟩
    rw [← hi]
    exact i.nanos_lt
  · intro h
    have hpos : (0 : ℤ) ≤ k * period.nanos := by positivity
    exact ⟨⟨first.nanos + k * period.nanos, by omega, h⟩, rfl⟩

/-- A clock that shows a boundary shows those before it. -/
theorem Shows.of_le {k m : ℕ} (h : first.Shows period m) (hk : k ≤ m) : first.Shows period k := by
  rw [shows_iff] at h ⊢
  have hmul : (k : ℤ) * period.nanos ≤ m * period.nanos := by
    exact_mod_cast Nat.mul_le_mul_right period.nanos hk
  omega

/-- A boundary on the clock is exactly where it belongs. -/
theorem nanos_boundary_of_shows {k : ℕ} (h : first.Shows period k) :
    (first.boundary period k).nanos = first.nanos + k * period.nanos := by
  induction k with
  | zero => simp [boundary]
  | succ k ih =>
      have hk := ih (h.of_le (Nat.le_succ k))
      rw [shows_iff] at h
      have hsum : (first.boundary period k).nanos + period.nanos =
          first.nanos + ((k + 1 : ℕ) : ℤ) * period.nanos := by
        rw [hk]
        push_cast
        ring
      have hadd : (first.boundary period k).add? period = some ⟨_, _, hsum ▸ h⟩ :=
        dif_pos (hsum ▸ h)
      rw [boundary, hadd]
      exact hsum

/-- A boundary beyond the clock stays at the last one on it. -/
theorem boundary_of_greatest {m : ℕ} (hm : IsGreatest {k | first.Shows period k} m) (j : ℕ) :
    first.boundary period (m + j) = first.boundary period m := by
  induction j with
  | zero => rfl
  | succ j ih =>
      have hout : ¬(first.boundary period m).nanos + period.nanos < 2 ^ 63 * 10 ^ 9 := by
        intro hlt
        have hnext : first.Shows period (m + 1) := by
          rw [shows_iff]
          rw [nanos_boundary_of_shows hm.1] at hlt
          push_cast
          linarith
        have := hm.2 hnext
        omega
      have hadd : (first.boundary period m).add? period = none := dif_neg hout
      rw [← Nat.add_assoc, boundary, ih, hadd]
      rfl

/-- **A boundary is a whole number of periods after the first release**, as many as the clock
allows. -/
theorem nanos_boundary {m : ℕ} (hm : IsGreatest {k | first.Shows period k} m) (k : ℕ) :
    (first.boundary period k).nanos = first.nanos + (min k m : ℕ) * period.nanos := by
  rcases Nat.le_total k m with hk | hk
  · rw [min_eq_left hk]
    exact nanos_boundary_of_shows (hm.1.of_le hk)
  · obtain ⟨j, rfl⟩ := Nat.exists_eq_add_of_le hk
    rw [min_eq_right hk, boundary_of_greatest hm]
    exact nanos_boundary_of_shows hm.1

/-- The clock has a last boundary, unless the period is empty. -/
theorem exists_greatest_shows (hp : period.isZero = false) :
    ∃ m, IsGreatest {k | first.Shows period k} m := by
  have hpos : 0 < period.nanos := by
    have : period.nanos ≠ 0 := by simpa [Duration.isZero] using hp
    omega
  have hhigh := first.nanos_lt
  have hiff : ∀ k : ℕ, first.Shows period k ↔
      k ≤ (2 ^ 63 * 10 ^ 9 - 1 - first.nanos).toNat / period.nanos := by
    intro k
    rw [shows_iff, Nat.le_div_iff_mul_le hpos]
    have hcast : ((k * period.nanos : ℕ) : ℤ) = k * period.nanos := by push_cast; rfl
    omega
  exact ⟨_, (hiff _).2 le_rfl, fun k hk => (hiff k).1 hk⟩

end Instant

/-! ### Counting -/

/-- How many steps of a run do something in the state that they find. -/
def tally {σ α : Type} (step : σ → α → σ) (does : σ → α → Bool) (s : σ) : List α → ℕ
  | [] => 0
  | m :: run => (does s m).toNat + tally step does (step s m) run

/-- One more step is counted in the state that the run leads to. -/
theorem tally_concat {σ α : Type} (step : σ → α → σ) (does : σ → α → Bool) (s : σ) (run : List α)
    (m : α) :
    tally step does s (run ++ [m]) =
      tally step does s run + (does (run.foldl step s) m).toNat := by
  induction run generalizing s with
  | nil => simp [tally]
  | cons k run ih => simp [tally, ih, Nat.add_assoc]

/-! ### What a step can do to a job -/

namespace Task

/-- What a step can do to a task's job and its boundary; the flags tell whether it releases a job,
and whether it starts one. -/
inductive Goes (t : Task) : Bool → Bool → Task → Prop where
  | stays {u : Task} (period : u.period = t.period) (pending : u.jobPending = t.jobPending)
      (boundary : u.nextRelease = t.nextRelease) : Goes t false false u
  | released {u : Task} (period : u.period = t.period) (idle : t.jobPending = false)
      (pending : u.jobPending = true) (boundary : u.nextRelease = t.nextRelease) :
      Goes t true false u
  | started {u : Task} (period : u.period = t.period) (waiting : t.jobPending = true)
      (done : u.jobPending = false) (boundary : u.nextRelease = t.boundaryAfter) :
      Goes t false true u

theorem Goes.refl (t : Task) : t.Goes false false t := .stays rfl rfl rfl

/-- The first grant of a job starts it, any other leaves job and boundary alone. -/
theorem goes_grant (t : Task) : t.Goes false t.jobPending t.grant := by
  cases hp : t.jobPending with
  | true => exact .started t.period_grant hp t.jobPending_grant (by rw [nextRelease_grant, hp]; rfl)
  | false =>
      have hpending : t.grant.jobPending = t.jobPending := by rw [jobPending_grant, hp]
      exact .stays t.period_grant hpending (by rw [nextRelease_grant, hp]; rfl)

/-- What has happened to a job shows in its flag. -/
theorem Goes.flags {t u : Task} {r d : Bool} (h : t.Goes r d u) :
    r = (!t.jobPending && u.jobPending) ∧ d = (t.jobPending && !u.jobPending) := by
  cases h with
  | stays _ pending _ => rw [pending]; cases t.jobPending <;> exact ⟨rfl, rfl⟩
  | released _ idle pending _ => rw [idle, pending]; exact ⟨rfl, rfl⟩
  | started _ waiting done _ => rw [waiting, done]; exact ⟨rfl, rfl⟩

/-- A record after so many releases and starts since the task was registered. -/
structure Counted (first : Instant) (p : Duration) (released started : ℕ) (t : Task) :
    Prop where
  /-- The period stays. -/
  period : t.period = p
  /-- Every job that was released has started, but for the one that is pending. -/
  jobs : released = started + t.jobPending.toNat
  /-- The next boundary is one period after the first release for every start. -/
  boundary : t.nextRelease = first.boundary p started

/-- A task that is registered has had no job. -/
theorem counted_sleepingUntil (id : TaskId) (handle : ExecHandle) (period budget : Duration)
    (first : Instant) :
    (sleepingUntil id handle period budget first).Counted first period 0 0 :=
  ⟨rfl, rfl, rfl⟩

/-- **Every step keeps count.** -/
theorem Counted.goes {first : Instant} {period : Duration} {released started : ℕ} {t u : Task}
    {r d : Bool} (h : t.Counted first period released started) (hu : t.Goes r d u) :
    u.Counted first period (released + r.toNat) (started + d.toNat) := by
  have hjobs := h.jobs
  cases hu with
  | stays same pending boundary =>
      exact ⟨same.trans h.period, by rw [pending]; exact hjobs, boundary.trans h.boundary⟩
  | released same idle pending boundary =>
      rw [idle] at hjobs
      exact ⟨same.trans h.period, by rw [pending, hjobs], boundary.trans h.boundary⟩
  | started same waiting done boundary =>
      rw [waiting] at hjobs
      refine ⟨same.trans h.period, by rw [done, hjobs], ?_⟩
      rw [boundary, boundaryAfter, h.boundary, h.period]
      rfl

/-- Between two jobs, the next boundary on the clock is as many periods after the first release as
jobs were released. -/
theorem Counted.eq_nextRelease {first : Instant} {period : Duration} {released started : ℕ} {t : Task}
    (h : t.Counted first period released started) (hidle : t.jobPending = false) {b : Instant}
    (hb : b.nanos = first.nanos + released * period.nanos) : b = t.nextRelease := by
  have hjobs := h.jobs
  rw [hidle, Bool.toNat_false, Nat.add_zero] at hjobs
  rw [hjobs] at hb
  have hshows : first.Shows period started := ⟨b, hb⟩
  rw [h.boundary]
  exact Instant.ext (hb.trans (Instant.nanos_boundary_of_shows hshows).symm)

end Task

/-! ### What a step of the schedule does to a job -/

namespace Schedule

/-- Whether an evaluation starts a pending job of a task. -/
def starts (s : Schedule) (id : TaskId) : Bool :=
  decide (s.evaluate.1.grantee = some id) && (s.task? id).any (·.jobPending)

variable {s next : Schedule} {id j : TaskId} {t u : Task}

/-- After a record has been stored, a task has this one or the one it had. -/
theorem cases_of_insert {v : Task} {q : ReadyQueue} {c : Option TaskId} (ht : s.task? id = some t)
    (hu : ({ s with tasks := s.tasks.insert j v, ready := q, current := c } : Schedule).task? id =
      some u) : (j = id ∧ u = v) ∨ (j ≠ id ∧ u = t) := by
  rw [task?_insert] at hu
  split at hu
  · next hj =>
      cases hu
      exact Or.inl ⟨hj, rfl⟩
  · next hj =>
      rw [ht] at hu
      cases hu
      exact Or.inr ⟨hj, rfl⟩

/-- An effective release releases a job of its task. -/
theorem Sound.goes_release (h : s.Sound) (ht : s.task? id = some t)
    (hu : (s.release j).2.task? id = some u) :
    t.Goes (decide (j = id) && decide ((s.release j).1 = .released)) false u := by
  rcases release_cases s j with ⟨v, hv, hsleep, heq⟩ | ⟨hne, heq⟩
  · rw [heq] at hu ⊢
    rcases cases_of_insert ht hu with ⟨rfl, rfl⟩ | ⟨hj, rfl⟩
    · rw [hv] at ht
      cases ht
      -- A sleeping task has no pending job.
      have hidle : t.jobPending = false := by
        cases hp : t.jobPending with
        | false => rfl
        | true =>
            have hready := h.pending j t hv hp
            rw [hsleep] at hready
            cases hready
      have hgoes : t.Goes true false t.release := .released rfl hidle rfl rfl
      simpa using hgoes
    · simpa [hj] using Task.Goes.refl u
  · rw [heq, ht] at hu
    cases hu
    simpa [hne] using Task.Goes.refl t

/-- An evaluation starts the pending job of the task that takes the slot. -/
theorem Sound.goes_evaluate (h : s.Sound) (ht : s.task? id = some t)
    (hu : s.evaluate.2.task? id = some u) : t.Goes false (s.starts id) u := by
  have hcases := h.evaluates
  unfold starts
  generalize s.evaluate.1 = d at hcases
  generalize s.evaluate.2 = next at hcases hu
  cases hcases with
  | idle _ =>
      rw [ht] at hu
      cases hu
      exact .refl t
  | keep _ _ _ _ _ =>
      rw [ht] at hu
      cases hu
      exact .refl t
  | @grant head v _ _ _ _ _ task _ _ =>
      rcases cases_of_insert ht hu with ⟨rfl, rfl⟩ | ⟨hj, rfl⟩
      · rw [ht] at task
        cases task
        simpa [Decision.grantee, ht] using t.goes_grant
      · simpa [Decision.grantee, hj] using Task.Goes.refl u
  | @preempt running head v w _ _ _ _ _ task run _ headTask ready _ =>
      rw [task?_displace] at hu
      split at hu
      · next hhead =>
          subst hhead
          rw [ht] at headTask
          cases headTask
          cases hu
          simpa [Decision.grantee, ht] using t.goes_grant
      · next hhead =>
          have hgoes : t.Goes false false u := by
            split at hu
            · next hrunning =>
                subst hrunning
                rw [ht] at task
                cases task
                cases hu
                exact .stays rfl rfl rfl
            · rw [ht] at hu
              cases hu
              exact .refl t
          simpa [Decision.grantee, hhead] using hgoes

/-- A confirmation leaves all jobs alone. -/
theorem Sound.goes_confirm (h : s.Sound) (ht : s.task? id = some t)
    (hu : (s.confirm j).2.task? id = some u) : t.Goes false false u := by
  rcases h.confirm_cases j with ⟨v, -, -, hv, -, heq⟩ | ⟨-, heq⟩
  · rw [heq] at hu
    rcases cases_of_insert ht hu with ⟨rfl, rfl⟩ | ⟨-, rfl⟩
    · rw [hv] at ht
      cases ht
      exact .stays rfl rfl rfl
    · exact .refl u
  · rw [heq, ht] at hu
    cases hu
    exact .refl t

/-- A yield releases the next job of its task if it comes after the boundary. -/
theorem Yields.goes {now : Instant} {y : YieldResult} (h : s.Yields j now y next) (hs : s.Sound)
    (ht : s.task? id = some t) (hu : next.task? id = some u) :
    t.Goes (decide (j = id) && decide (y.outcome = .requeued)) false u := by
  cases h with
  | nothing _ _ =>
      rw [ht] at hu
      cases hu
      simpa using Task.Goes.refl t
  | @sleep v remaining task busy _ =>
      have hgoes : t.Goes false false u := by
        rcases cases_of_insert ht hu with ⟨rfl, rfl⟩ | ⟨-, rfl⟩
        · rw [task] at ht
          cases ht
          exact .stays rfl rfl rfl
        · exact .refl u
      simpa using hgoes
  | @requeue v task busy late =>
      rcases cases_of_insert ht hu with ⟨rfl, rfl⟩ | ⟨hj, rfl⟩
      · rw [task] at ht
        cases ht
        have hidle := hs.jobPending_of_inProgress task busy
        have hgoes : t.Goes true false t.requeue := .released rfl hidle rfl rfl
        simpa using hgoes
      · simpa [hj] using Task.Goes.refl u

/-- Nothing happens to the others' jobs when a task comes. -/
theorem goes_put {v : Task} (hv : s.task? v.id = none) (ht : s.task? id = some t)
    (hu : (s.put v).task? id = some u) : t.Goes false false u := by
  rcases cases_of_insert ht hu with ⟨hj, rfl⟩ | ⟨-, rfl⟩
  · rw [hj, ht] at hv
    cases hv
  · exact .refl u

/-- Nothing happens to the others' jobs when a task leaves. -/
theorem goes_withdraw (ht : s.task? id = some t) (hu : (s.withdraw j).2.task? id = some u) :
    t.Goes false false u := by
  rw [task?_withdraw] at hu
  split at hu
  · cases hu
  · rw [ht] at hu
    cases hu
    exact .refl t

/-- Whatever happens releases a task's job, starts it, or leaves it alone. -/
theorem Sound.goes_moves (h : s.Sound) (hm : s.Moves next) (ht : s.task? id = some t)
    (hu : next.task? id = some u) : ∃ r d, t.Goes r d u := by
  cases hm with
  | stay =>
      rw [ht] at hu
      cases hu
      exact ⟨false, false, .refl t⟩
  | @put e first new => exact ⟨false, false, goes_put (v := e.asleep first) new ht hu⟩
  | withdraw j => exact ⟨false, false, goes_withdraw ht hu⟩
  | yields ends => exact ⟨_, false, ends.goes h ht hu⟩
  | release j => exact ⟨_, false, h.goes_release ht hu⟩
  | evaluate => exact ⟨false, _, h.goes_evaluate ht hu⟩
  | confirm j => exact ⟨false, false, h.goes_confirm ht hu⟩
  | stop =>
      have heq : t = u := Option.some.inj (ht.symm.trans hu)
      exact ⟨false, false, heq ▸ .refl t⟩

end Schedule

end RateMonotonic
