/-
**The numbers of admission are exact.**

A share is computed in 128 bits and cut to 64, the shares are added in 64 bits, and the share of the
candidate is added to the total in 64 bits again.  A thousand times a duration fits in 128 bits, so
that the product is never cut.  The other three words stop at the greatest one, where they could
only be too small, and a bound below the greatest word is exceeded by all that has been cut.  So a
candidate is compared as if the numbers had no limit, whatever the durations and however many tasks
there are.  An empty period has the greatest word for its share, and is refused for the same reason.

Main definitions:
* `shareSum` — the sum of the shares, without a limit;
* `Lightens` — a task that asks for less in the same period.

Main results:
* `totalUtilization_eq_saturate` — **the total is the sum of the shares, up to the greatest word**;
* `fits_iff` — **a candidate fits exactly when the numbers without a limit fit**;
* `fits_of_lightens` — who fits beside some tasks fits beside fewer and lighter ones;
* `admission_exact` — all of this together.
-/

import Mathlib.Data.List.Forall2
import RateMonotonic.Proofs.ExactLoad

set_option relaxedAutoImplicit false
set_option autoImplicit false

namespace RateMonotonic

variable {ts us : List (Duration × Duration)} {budget less more period longer : Duration} {bound : ℕ}

theorem Duration.isZero_eq_false_iff {d : Duration} : d.isZero = false ↔ d.nanos ≠ 0 := by
  simp [isZero]

/-! ### Shares -/

/-- A thousand times a duration fits in 128 bits. -/
theorem saturate_product (budget : Duration) :
    saturate 128 (budget.nanos * 1000) = budget.nanos * 1000 := by
  have := budget.nanos_lt
  exact saturate_of_lt (by omega)

theorem utilization_of_isZero (hp : period.isZero = true) (budget : Duration) :
    utilization budget period = 2 ^ 64 - 1 := by
  rw [utilization, if_pos hp]

theorem utilization_le (budget period : Duration) : utilization budget period ≤ 2 ^ 64 - 1 := by
  unfold utilization
  split
  · exact le_rfl
  · exact saturate_le 64 _

theorem saturate_mono (bits : ℕ) {m n : ℕ} (h : m ≤ n) : saturate bits m ≤ saturate bits n := by
  unfold saturate
  omega

/-- **A greater budget** takes no less of the same period. -/
theorem utilization_le_of_budget (h : less ≤ more) (period : Duration) :
    utilization less period ≤ utilization more period := by
  cases hp : period.isZero with
  | true => rw [utilization_of_isZero hp, utilization_of_isZero hp]
  | false =>
      rw [utilization_eq hp, utilization_eq hp]
      refine saturate_mono 64 (Nat.div_le_div_right ?_)
      exact Nat.mul_le_mul_left 1000 (Duration.le_def.1 h)

/-- **A longer period** leaves no more to the same budget. -/
theorem utilization_le_of_period (h : period ≤ longer) (budget : Duration) :
    utilization budget longer ≤ utilization budget period := by
  cases hp : period.isZero with
  | true =>
      rw [utilization_of_isZero hp]
      exact utilization_le budget longer
  | false =>
      have hpos : 0 < period.nanos := Nat.pos_of_ne_zero (Duration.isZero_eq_false_iff.1 hp)
      have hle : period.nanos ≤ longer.nanos := Duration.le_def.1 h
      have hl : longer.isZero = false := Duration.isZero_eq_false_iff.2 (by omega)
      rw [utilization_eq hp, utilization_eq hl]
      exact saturate_mono 64 (Nat.div_le_div_left hle hpos)

/-! ### Totals -/

/-- The sum of the shares of tasks with these budgets and periods, without a limit. -/
def shareSum (timings : List (Duration × Duration)) : ℕ :=
  (timings.map fun t => utilization t.1 t.2).sum

theorem shareSum_cons (t : Duration × Duration) (timings : List (Duration × Duration)) :
    shareSum (t :: timings) = utilization t.1 t.2 + shareSum timings := rfl

/-- The sum does not depend on the order of the tasks. -/
theorem shareSum_perm (h : ts.Perm us) : shareSum ts = shareSum us := (h.map _).sum_eq

/-- The total in words, from any word on. -/
theorem foldl_saturate (ts : List (Duration × Duration)) (start : ℕ) :
    ts.foldl (fun total t => saturate 64 (total + utilization t.1 t.2)) (saturate 64 start) =
      saturate 64 (start + shareSum ts) := by
  induction ts generalizing start with
  | nil => rfl
  | cons t ts ih => rw [List.foldl_cons, saturate_add, ih, shareSum_cons, Nat.add_assoc]

/-- **The total is the sum of the shares, up to the greatest word.** -/
theorem totalUtilization_eq_saturate (ts : List (Duration × Duration)) :
    totalUtilization ts = saturate 64 (shareSum ts) := by
  have hfold := foldl_saturate ts 0
  rwa [Nat.zero_add] at hfold

/-! ### Decisions -/

/-- Below the greatest word it does not matter that the sums are cut. -/
theorem fits_iff_shareSum (hbound : bound < 2 ^ 64 - 1) :
    fits bound ts budget period = true ↔ shareSum ts + utilization budget period ≤ bound := by
  simp only [fits, Admission.admitted, Admission.total, Admission.evaluate,
    totalUtilization_eq_saturate, decide_eq_true_iff, saturate]
  omega

/-- A task with an empty period leaves no room below the greatest word. -/
theorem isZero_eq_false_of_shareSum_lt (h : shareSum ts < 2 ^ 64 - 1) :
    ∀ t ∈ ts, t.2.isZero = false := by
  intro t ht
  have hle : utilization t.1 t.2 ≤ shareSum ts :=
    List.single_le_sum (fun n _ => Nat.zero_le n) _ (List.mem_map_of_mem ht)
  by_contra hzero
  rw [utilization_of_isZero (by simpa using hzero)] at hle
  omega

/-- **A candidate fits exactly when the numbers without a limit fit**, and no period is empty. -/
theorem fits_iff (hbound : bound < 2 ^ 64 - 1) :
    fits bound ts budget period = true ↔
      (∀ t ∈ ts, t.2.isZero = false) ∧ period.isZero = false ∧
        exactTotal ts + exactUtilization budget period ≤ bound := by
  constructor
  · intro hfits
    have hsum := (fits_iff_shareSum hbound).1 hfits
    have hts : ∀ t ∈ ts, t.2.isZero = false := isZero_eq_false_of_shareSum_lt (by omega)
    have hp : period.isZero = false := by
      by_contra hzero
      rw [utilization_of_isZero (by simpa using hzero)] at hsum
      omega
    exact ⟨hts, hp, (Admission.admitted_iff hbound hts hp budget).1 hfits⟩
  · rintro ⟨hts, hp, hsum⟩
    exact (Admission.admitted_iff hbound hts hp budget).2 hsum

/-- The greatest word itself, as a bound, is never exceeded: not even by an empty period. -/
example : fits (2 ^ 64 - 1) [] Duration.zero Duration.zero = true := by decide

/-- A decision depends on the total of the tasks and on the share of the candidate. -/
theorem fits_of_le (htotal : shareSum ts ≤ shareSum us)
    (hshare : utilization less period ≤ utilization more period)
    (h : fits bound us more period = true) : fits bound ts less period = true := by
  simp only [fits, Admission.admitted, Admission.total, Admission.evaluate,
    totalUtilization_eq_saturate, decide_eq_true_iff, saturate] at h ⊢
  omega

theorem fits_perm (h : ts.Perm us) : fits bound ts budget period = fits bound us budget period := by
  simp only [fits, Admission.admitted, Admission.total, Admission.evaluate,
    totalUtilization_eq_saturate, shareSum_perm h]

/-- A task that asks for no more than another in the same period. -/
def Lightens (t u : Duration × Duration) : Prop := t.1 ≤ u.1 ∧ t.2 = u.2

/-- Fewer and lighter tasks take no more. -/
theorem shareSum_le_of_lightens (h : ts.SublistForall₂ Lightens us) : shareSum ts ≤ shareSum us := by
  induction h with
  | nil => exact Nat.zero_le _
  | @cons t u ts us hlight _ ih =>
      have hshare := utilization_le_of_budget hlight.1 t.2
      rw [shareSum_cons, shareSum_cons, ← hlight.2]
      omega
  | @cons_right u ts us _ ih =>
      rw [shareSum_cons]
      omega

/-- **Who fits beside some tasks** fits beside fewer and lighter ones, and so does a lighter
candidate. -/
theorem fits_of_lightens (hts : ts.SublistForall₂ Lightens us) (hle : less ≤ more)
    (h : fits bound us more period = true) : fits bound ts less period = true :=
  fits_of_le (shareSum_le_of_lightens hts) (utilization_le_of_budget hle period) h

/-! ### All together -/

/-- **The numbers of admission are exact.**  The product of a budget with a thousand is never cut,
and for a period that is not empty a share is the exact quotient, up to the greatest word; it does
not fall when the budget grows, nor rise when the period does.  In whatever order the tasks come,
their total is the sum of their shares, up to the greatest word.  Below the greatest word a bound
admits a candidate exactly when no period is empty and the sum of all quotients, without any limit,
stays within it.  Tasks in another order admit the same candidates, and where tasks are dropped or
budgets shrink, the candidate's among them, an admitted candidate is not refused. -/
theorem admission_exact :
    (∀ budget period : Duration, period.nanos ≠ 0 →
      saturate 128 (budget.nanos * 1000) = budget.nanos * 1000 ∧
        utilization budget period = min (1000 * budget.nanos / period.nanos) (2 ^ 64 - 1)) ∧
    (∀ less more period : Duration, period.nanos ≠ 0 → less ≤ more →
      utilization less period ≤ utilization more period) ∧
    (∀ budget period longer : Duration, period.nanos ≠ 0 → period ≤ longer →
      utilization budget longer ≤ utilization budget period) ∧
    (∀ ts us : List (Duration × Duration), ts.Perm us →
      totalUtilization us = min (ts.map fun t => utilization t.1 t.2).sum (2 ^ 64 - 1)) ∧
    (∀ bound ts (budget period : Duration), bound < 2 ^ 64 - 1 →
      (fits bound ts budget period = true ↔
        (∀ t ∈ ts, t.2.nanos ≠ 0) ∧ period.nanos ≠ 0 ∧
          (ts.map fun t => 1000 * t.1.nanos / t.2.nanos).sum +
            1000 * budget.nanos / period.nanos ≤ bound)) ∧
    (∀ bound ts us (budget period : Duration), ts.Perm us →
      fits bound ts budget period = fits bound us budget period) ∧
    ∀ bound ts us (less more period : Duration), ts.SublistForall₂ Lightens us → less ≤ more →
      fits bound us more period = true → fits bound ts less period = true := by
  refine ⟨?_, ?_, ?_, ?_, ?_, ?_, ?_⟩
  · intro budget period hp
    exact ⟨saturate_product budget, utilization_eq (Duration.isZero_eq_false_iff.2 hp) budget⟩
  · intro less more period _ hle
    exact utilization_le_of_budget hle period
  · intro budget period longer _ hle
    exact utilization_le_of_period hle budget
  · intro ts us hperm
    rw [totalUtilization_eq_saturate, ← shareSum_perm hperm]
    rfl
  · intro bound ts budget period hbound
    rw [fits_iff hbound]
    simp only [Duration.isZero_eq_false_iff]
    rfl
  · intro bound ts us budget period hperm
    exact fits_perm hperm
  · intro bound ts us less more period hts hle hfits
    exact fits_of_lightens hts hle hfits

/-- Three thirds are 999 permille: what is cut off of each share is free for a candidate. -/
theorem admission_exact_thirds :
    let third := (Duration.ofMillis 1, Duration.ofMillis 3)
    fits 1000 [third, third, third] (Duration.ofMillis 1) (Duration.ofMillis 1000) = true := by
  intro third
  exact (admission_exact.2.2.2.2.1 1000 [third, third, third] _ _ (by decide)).2 (by decide)

end RateMonotonic
