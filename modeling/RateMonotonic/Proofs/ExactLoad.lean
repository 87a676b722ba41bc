/-
**What the registered tasks really take of the processor.**

The scheduler computes in 64-bit words that stop at their greatest value, rounds every task's share
down, and weighs a candidate before the candidate is registered.  None of this ever shows: in every
state of every run the word it computes is the true sum of the shares, and that sum stays within the
bound.  A candidate is weighed when its call enters the registry and is registered some sections
later; the registry is held in between, so its weight still fits.

Main definitions:
* `exactUtilization`, `exactTotal` — of one task, and of a list of tasks, in natural numbers;
* `Registry.load` — what the registered tasks take;
* `Registry.Within` — the tasks of a registry stay within a bound;
* `System.Admitted` — the same, with the candidates that have been weighed and are not registered;
* `Scheduler.ExactlyAdmits` — what clients can rely on.

Main results:
* `totalUtilization_eq` — the total in words is the true total, up to the greatest word;
* `ratio_sum_lt` — the true ratios take less than one permille per task more than the shares;
* `Registry.Within.checkCandidate_eq` — **a candidate is weighed exactly**;
* `System.Admitted.act` — **every action keeps the registered tasks within the bound**;
* `System.exactlyAdmits_after` — **every state of a run admits exactly**.
-/

import Mathlib.Algebra.Order.BigOperators.Group.List
import Mathlib.Algebra.Order.Field.Basic
import Mathlib.Tactic.Linarith
import Mathlib.Tactic.Ring
import RateMonotonic.Proofs.System

set_option relaxedAutoImplicit false
set_option autoImplicit false

namespace RateMonotonic

/-! ### The true numbers -/

/-- What a budget takes of its period in permille, rounded down. -/
def exactUtilization (budget period : Duration) : ℕ := 1000 * budget.nanos / period.nanos

/-- What tasks with these budgets and periods take together, each share rounded down. -/
def exactTotal (timings : List (Duration × Duration)) : ℕ :=
  (timings.map fun t => exactUtilization t.1 t.2).sum

@[simp] theorem exactTotal_nil : exactTotal [] = 0 := rfl

@[simp] theorem exactTotal_cons (t : Duration × Duration) (timings : List (Duration × Duration)) :
    exactTotal (t :: timings) = exactUtilization t.1 t.2 + exactTotal timings := rfl

theorem exactTotal_append (ts us : List (Duration × Duration)) :
    exactTotal (ts ++ us) = exactTotal ts + exactTotal us := by
  simp [exactTotal]

/-- A part of the tasks takes no more than all of them. -/
theorem exactTotal_le_of_sublist {ts us : List (Duration × Duration)} (h : ts.Sublist us) :
    exactTotal ts ≤ exactTotal us := by
  induction h with
  | slnil => exact le_rfl
  | cons t _ ih =>
      rw [exactTotal_cons]
      omega
  | cons_cons t _ ih =>
      rw [exactTotal_cons, exactTotal_cons]
      omega

/-- A thousand budgets fit in 128 bits, so only the 64 bits of the result ever matter. -/
theorem utilization_eq {period : Duration} (hp : period.isZero = false) (budget : Duration) :
    utilization budget period = saturate 64 (exactUtilization budget period) := by
  have hbudget : budget.nanos * 1000 < 2 ^ 128 := by
    have := budget.nanos_lt
    omega
  simp only [utilization, hp, Bool.false_eq_true, if_false, saturate_of_lt hbudget,
    exactUtilization, Nat.mul_comm]

/-- The total in words, from any word on. -/
theorem foldl_utilization {timings : List (Duration × Duration)}
    (h : ∀ t ∈ timings, t.2.isZero = false) (start : ℕ) :
    timings.foldl (fun total t => saturate 64 (total + utilization t.1 t.2)) (saturate 64 start) =
      saturate 64 (start + exactTotal timings) := by
  induction timings generalizing start with
  | nil => simp
  | cons t timings ih =>
      have hstep : saturate 64 (saturate 64 start + utilization t.1 t.2) =
          saturate 64 (start + exactUtilization t.1 t.2) := by
        rw [utilization_eq (h t List.mem_cons_self), saturate_add, Nat.add_comm, saturate_add,
          Nat.add_comm]
      rw [List.foldl_cons, hstep, ih fun u hu => h u (List.mem_cons_of_mem t hu), exactTotal_cons,
        Nat.add_assoc]

/-- **The total in words** is the true total, up to the greatest word. -/
theorem totalUtilization_eq {timings : List (Duration × Duration)}
    (h : ∀ t ∈ timings, t.2.isZero = false) :
    totalUtilization timings = saturate 64 (exactTotal timings) := by
  have hfold := foldl_utilization h 0
  rwa [Nat.zero_add] at hfold

/-- A candidate fits exactly when the true numbers fit, as long as the bound is not the greatest
word. -/
theorem Admission.admitted_iff {bound : ℕ} (hbound : bound < 2 ^ 64 - 1)
    {timings : List (Duration × Duration)} (h : ∀ t ∈ timings, t.2.isZero = false)
    {period : Duration} (hp : period.isZero = false) (budget : Duration) :
    (Admission.evaluate bound timings budget period).admitted = true ↔
      exactTotal timings + exactUtilization budget period ≤ bound := by
  simp only [Admission.admitted, Admission.total, Admission.evaluate, totalUtilization_eq h,
    utilization_eq hp, decide_eq_true_iff, saturate]
  omega

/-! ### Ratios -/

/-- Rounding down loses less than one permille. -/
theorem ratio_lt {period : Duration} (hp : period.isZero = false) (budget : Duration) :
    (budget.nanos : ℚ) / period.nanos < (exactUtilization budget period + 1) / 1000 := by
  have hpos : 0 < period.nanos := by
    have : period.nanos ≠ 0 := by simpa [Duration.isZero] using hp
    omega
  have hnat : 1000 * budget.nanos < (exactUtilization budget period + 1) * period.nanos := by
    rw [Nat.mul_comm (exactUtilization budget period + 1)]
    exact Nat.lt_mul_div_succ (1000 * budget.nanos) hpos
  have hrat : (1000 : ℚ) * budget.nanos <
      (exactUtilization budget period + 1) * period.nanos := by exact_mod_cast hnat
  have hposq : (0 : ℚ) < period.nanos := by exact_mod_cast hpos
  rw [div_lt_div_iff₀ hposq (by norm_num)]
  linarith

/-- **The true ratios** take less than one permille per task more than the shares. -/
theorem ratio_sum_lt {timings : List (Duration × Duration)}
    (h : ∀ t ∈ timings, t.2.isZero = false) (hne : timings ≠ []) :
    (timings.map fun t => (t.1.nanos : ℚ) / t.2.nanos).sum <
      (exactTotal timings + timings.length) / 1000 := by
  have hsum : (timings.map fun t => ((exactUtilization t.1 t.2 : ℚ) + 1) / 1000).sum =
      (exactTotal timings + timings.length) / 1000 := by
    clear h hne
    induction timings with
    | nil => simp
    | cons t timings ih =>
        rw [List.map_cons, List.sum_cons, ih, exactTotal_cons, List.length_cons]
        push_cast
        ring
  rw [← hsum]
  exact List.sum_lt_sum_of_ne_nil hne _ _ fun t ht => ratio_lt (h t ht) t.1

/-! ### The registered tasks -/

namespace Registry

/-- What the registered tasks take of the processor, in permille. -/
def load (r : Registry) : ℕ := exactTotal r.timings

/-- The registered tasks can be served, and they stay within a bound. -/
structure Within (bound : ℕ) (r : Registry) : Prop where
  /-- No period is empty. -/
  served : ∀ t ∈ r.timings, t.2.isZero = false
  /-- The tasks together take no more than the bound. -/
  load_le : r.load ≤ bound

theorem within_empty (bound : ℕ) : empty.Within bound :=
  ⟨by simp [empty, timings], Nat.zero_le bound⟩

/-- Only the list of the tasks matters. -/
theorem timings_of_entries {r q : Registry} (h : q.entries = r.entries) : q.timings = r.timings := by
  simp only [timings, h]

theorem load_of_entries {r q : Registry} (h : q.entries = r.entries) : q.load = r.load := by
  simp only [load, timings_of_entries h]

variable {bound : ℕ} {r q : Registry}

theorem Within.of_entries (h : r.Within bound) (hentries : q.entries = r.entries) :
    q.Within bound :=
  ⟨by rw [timings_of_entries hentries]; exact h.served,
    by rw [load_of_entries hentries]; exact h.load_le⟩

/-- A task that has been weighed keeps the registry within the bound. -/
theorem Within.append (h : r.Within bound) {e : RegistryEntry}
    (hentries : q.entries = r.entries ++ [e]) (hserved : e.info.period.isZero = false)
    (hfits : r.load + exactUtilization e.info.budget e.info.period ≤ bound) : q.Within bound := by
  have htimings : q.timings = r.timings ++ [(e.info.budget, e.info.period)] := by
    simp [timings, hentries]
  refine ⟨?_, ?_⟩
  · intro t ht
    rw [htimings, List.mem_append, List.mem_singleton] at ht
    rcases ht with ht | rfl
    · exact h.served t ht
    · exact hserved
  · rw [load, htimings, exactTotal_append, exactTotal_cons, exactTotal_nil, Nat.add_zero]
    exact hfits

theorem timings_eraseP (hentries : ∃ p, q.entries = r.entries.eraseP p) :
    q.timings.Sublist r.timings := by
  obtain ⟨p, hp⟩ := hentries
  rw [timings, timings, hp]
  exact List.eraseP_sublist.map _

theorem load_eraseP_le (hentries : ∃ p, q.entries = r.entries.eraseP p) : q.load ≤ r.load :=
  exactTotal_le_of_sublist (timings_eraseP hentries)

/-- A task less keeps the registry within the bound. -/
theorem Within.eraseP (h : r.Within bound) (hentries : ∃ p, q.entries = r.entries.eraseP p) :
    q.Within bound :=
  ⟨fun t ht => h.served t ((timings_eraseP hentries).subset ht),
    (load_eraseP_le hentries).trans h.load_le⟩

/-- What a registry within its bound takes fits in a word. -/
theorem Within.totalUtilization_eq (h : r.Within bound) (hbound : bound < 2 ^ 64 - 1) :
    totalUtilization r.timings = r.load := by
  have hload := h.load_le
  rw [RateMonotonic.totalUtilization_eq h.served]
  exact saturate_of_lt (by simp only [load] at hload ⊢; omega)

/-- **A candidate is weighed exactly.** -/
theorem Within.checkCandidate_eq {s : Scheduler}
    (h : s.registry.Within s.config.utilizationBound.toNat)
    (hbound : s.config.utilizationBound.toNat < 2 ^ 64 - 1) {t : TaskInfo}
    (hp : t.period.isZero = false) :
    s.checkCandidate t =
      if s.registry.contains t.id then .error (.alreadyRegistered t.id)
      else if s.registry.load + exactUtilization t.budget t.period ≤
          s.config.utilizationBound.toNat then .ok ()
      else .error (.admissionFailed (min (exactUtilization t.budget t.period) (2 ^ 64 - 1))
        s.registry.load s.config.utilizationBound.toNat) := by
  have hiff := Admission.admitted_iff hbound h.served hp t.budget
  unfold Scheduler.checkCandidate
  cases s.registry.contains t.id with
  | true => rfl
  | false =>
      simp only [Bool.false_eq_true, if_false]
      cases hadmitted : (Admission.evaluate s.config.utilizationBound.toNat s.registry.timings
          t.budget t.period).admitted with
      | true => exact (if_pos (hiff.1 hadmitted)).symm
      | false =>
          have hexceeds : ¬s.registry.load + exactUtilization t.budget t.period ≤
              s.config.utilizationBound.toNat := by
            intro hle
            rw [hiff.2 hle] at hadmitted
            cases hadmitted
          rw [if_neg hexceeds]
          simp only [Admission.evaluate, h.totalUtilization_eq hbound, utilization_eq hp, saturate,
            Bool.false_eq_true, if_false]

end Registry

/-! ### Candidates -/

namespace Activity

/-- The task that a call has weighed and not registered yet. -/
def candidate? : Activity → Option TaskInfo
  | .resolve t _ => some t
  | .enroll e _ => some e.info
  | _ => none

theorem candidate?_of_outside {a : Activity} (h : a.holds = false) : a.candidate? = none := by
  cases a <;> first | rfl | cases h

/-- A candidate has been one before the section, or has just been weighed. -/
theorem candidate?_of_step {s next : Scheduler} {resolver : Resolver} {now : Instant}
    {a rest : Activity} {t : TaskInfo} (ha : a.proper = true)
    (hstep : a.step s resolver now = some (next, rest)) (ht : rest.candidate? = some t) :
    (a.candidate? = some t ∧ next.registry.entries = s.registry.entries) ∨
      (a.candidate? = none ∧ next.registry.entries = s.registry.entries ∧
        s.checkCandidate t = .ok () ∧ ∃ first, s.checkTiming now t = .ok first) := by
  have hadvances := advances_of_step ha hstep
  cases hadvances with
  | @register u first free =>
      have hbegin : begin s now (.register u) = (s.holding, .resolve u first) :=
        Option.some.inj hstep
      cases ht
      rw [begin_register free] at hbegin
      refine Or.inr ⟨rfl, rfl, ?_⟩
      split at hbegin
      · cases (Prod.mk.inj hbegin).2
      · next hfirst =>
          split at hbegin
          · cases (Prod.mk.inj hbegin).2
          · next hcandidate => exact ⟨hcandidate, _, hfirst⟩
  | resolve => exact Or.inl ⟨ht, rfl⟩
  | @strike _ freed _ _ _ => cases freed <;> cases ht
  | armNext =>
      rw [candidate?_of_outside (holds_of_closing (closing_afterYield _ _))] at ht
      cases ht
  | unjoined =>
      rw [candidate?_of_outside (holds_of_closing ha)] at ht
      cases ht
  | join _ =>
      rw [candidate?_of_outside (holds_of_closing ha)] at ht
      cases ht
  | shutTimers =>
      rw [candidate?_of_outside (holds_of_closing ha)] at ht
      cases ht
  | awaitWorker =>
      rw [candidate?_of_outside (holds_of_closing ha)] at ht
      cases ht
  | reset =>
      rw [candidate?_of_outside (holds_of_closing ha)] at ht
      cases ht
  | post =>
      rw [candidate?_of_outside (holds_of_closing ha)] at ht
      cases ht
  | _ => cases ht

end Activity

/-! ### The bound in every state -/

namespace System

/-- The registered tasks stay within the bound, alone and with any candidate that has been
weighed. -/
structure Admitted (c : Config) (y : System) : Prop where
  /-- The configuration stays. -/
  config : y.scheduler.config = c
  /-- The registered tasks stay within the bound. -/
  within : y.scheduler.registry.Within c.utilizationBound.toNat
  /-- A candidate that has been weighed can be served, and fits beside them. -/
  weighed : ∀ a ∈ y.calls, ∀ t, a.candidate? = some t → t.period.isZero = false ∧
    y.scheduler.registry.load + exactUtilization t.budget t.period ≤ c.utilizationBound.toNat

theorem admitted_idle (c : Config) : (idle (Scheduler.ofConfig c)).Admitted c :=
  ⟨rfl, Registry.within_empty _, by simp [idle]⟩

variable {c : Config} {y : System}

/-- A step of a thread leaves registry and configuration alone. -/
theorem Admitted.thread (h : y.Admitted c) {next : Scheduler} (hconfig : next.config = y.scheduler.config)
    (hregistry : next.registry = y.scheduler.registry) : Admitted c ⟨next, y.calls⟩ where
  config := hconfig.trans h.config
  within := by rw [hregistry]; exact h.within
  weighed := by rw [hregistry]; exact h.weighed

/-- A candidate that a section leaves has been weighed beside what is registered after it. -/
theorem Admitted.candidate (h : y.Admitted c) (hbound : c.utilizationBound.toNat < 2 ^ 64 - 1)
    {a rest : Activity} {next : Scheduler} {resolver : Resolver} {now : Instant}
    (hmem : a ∈ y.calls) (ha : a.proper = true)
    (hstep : a.step y.scheduler resolver now = some (next, rest)) {t : TaskInfo}
    (ht : rest.candidate? = some t) :
    t.period.isZero = false ∧
      next.registry.load + exactUtilization t.budget t.period ≤ c.utilizationBound.toNat := by
  rcases Activity.candidate?_of_step ha hstep ht with ⟨hbefore, hentries⟩ |
    ⟨-, hentries, hcandidate, first, htiming⟩
  · rw [Registry.load_of_entries hentries]
    exact h.weighed a hmem t hbefore
  · have hserved := (Scheduler.checkTiming_eq_ok_iff.1 htiming).1
    have hwithin := h.within
    rw [← h.config] at hbound hwithin
    rw [hwithin.checkCandidate_eq hbound hserved] at hcandidate
    split at hcandidate
    · cases hcandidate
    · split at hcandidate
      · next hfits =>
          rw [Registry.load_of_entries hentries, ← h.config]
          exact ⟨hserved, hfits⟩
      · cases hcandidate

/-- The next section of a call keeps the registered tasks within the bound. -/
theorem Admitted.advance (h : y.Admitted c) (hy : y.Kept)
    (hbound : c.utilizationBound.toNat < 2 ^ 64 - 1) {l r : List Activity} {a rest : Activity}
    {next : Scheduler} {resolver : Resolver} {now : Instant} (hcalls : y.calls = l ++ a :: r)
    (hstep : a.step y.scheduler resolver now = some (next, rest)) :
    Admitted c ⟨next, l ++ rest :: r⟩ := by
  have hmem : a ∈ y.calls := by simp [hcalls]
  have hadvances := Activity.advances_of_step (hy.proper a hmem) hstep
  have hweighed := System.forall_calls_iff.1 (hcalls ▸ h.weighed)
  have hown : ∀ t, rest.candidate? = some t → _ :=
    fun t => h.candidate hbound hmem (hy.proper a hmem) hstep
  refine ⟨hadvances.config.trans h.config, ?_, forall_calls_iff.2 ⟨hown, ?_⟩⟩
  · rcases hadvances.entries_cases with hentries | ⟨e, first, rfl, -, hentries⟩ |
      ⟨id, freed, -, hentries⟩
    · exact h.within.of_entries hentries
    · obtain ⟨hserved, hfits⟩ := hweighed.1 e.info rfl
      exact h.within.append hentries hserved hfits
    · exact h.within.eraseP ⟨_, hentries⟩
  · intro b hb t ht
    rcases hadvances.entries_cases with hentries | ⟨e, first, rfl, -, -⟩ | ⟨id, freed, -, hentries⟩
    · rw [Registry.load_of_entries hentries]
      exact hweighed.2 b hb t ht
    · -- Whoever enrolls a task is inside the registry, so nobody else has weighed one.
      rw [Activity.candidate?_of_outside (hy.outside_of_other hcalls rfl hb)] at ht
      cases ht
    · obtain ⟨hserved, hfits⟩ := hweighed.2 b hb t ht
      have hle : next.registry.load ≤ y.scheduler.registry.load :=
        Registry.load_eraseP_le ⟨_, hentries⟩
      exact ⟨hserved, by simp only; omega⟩

/-- **Every action keeps the registered tasks within the bound.** -/
theorem Admitted.act (h : y.Admitted c) (hy : y.Kept)
    (hbound : c.utilizationBound.toNat < 2 ^ 64 - 1) (m : Action) : (y.act m).Admitted c := by
  cases m with
  | advance i resolver now =>
      rcases act_advance y i resolver now with heq | ⟨l, a, r, next, rest, hcalls, -, hstep, heq⟩
      · rw [heq]
        exact h
      · rw [heq]
        exact h.advance hy hbound hcalls hstep
  | invoke d =>
      have hacts := acts_act hy.proper (.invoke d)
      generalize y.act (.invoke d) = next at hacts
      cases hacts with
      | stutter _ => exact h
      | invoke _ =>
          refine ⟨h.config, h.within, ?_⟩
          intro a ha t ht
          rcases List.mem_append.1 ha with ha | ha
          · exact h.weighed a ha t ht
          · rw [List.mem_singleton.1 ha] at ht
            cases ht
  | loop =>
      have hacts := acts_act hy.proper .loop
      generalize y.act .loop = next at hacts
      cases hacts with
      | stutter _ => exact h
      | loop hloop => exact h.thread hloop.config (hloop.keeps hy.sound).registry
  | worker now =>
      have hacts := acts_act hy.proper (.worker now)
      generalize y.act (.worker now) = next at hacts
      cases hacts with
      | stutter _ => exact h
      | worker hworker => exact h.thread hworker.config (hworker.keeps hy.sound).registry

end System

/-! ### What clients can rely on -/

/-- What clients can rely on, in terms of the true numbers. -/
structure Scheduler.ExactlyAdmits (bound : ℕ) (s : Scheduler) : Prop where
  /-- The registered tasks stay within the bound. -/
  load_le : s.registry.load ≤ bound
  /-- The scheduler's own number is the true one; there is an answer unless somebody is inside. -/
  utilization : s.utilization =
    if s.registry.held then .error .lockUnavailable else .ok s.registry.load
  /-- The true ratios exceed the bound by less than one permille per task. -/
  ratios : s.registry.entries ≠ [] →
    (s.registry.entries.map fun e => (e.info.budget.nanos : ℚ) / e.info.period.nanos).sum <
      (bound + s.registry.entries.length) / 1000
  /-- A registration that can enter the registry is refused for its weight exactly when the true
  numbers exceed the bound, and the error tells these numbers. -/
  refuses : ∀ (resolver : Resolver) (now : Instant) (t : TaskInfo),
    s.registry.held = false → s.registry.contains t.id = false →
    t.period.isZero = false → t.budget.isZero = false →
    (s.firstRelease? now t.period).isSome = true →
    ∀ requested existing limit,
      (s.register resolver now t).1 = .error (.admissionFailed requested existing limit) ↔
        bound < s.registry.load + exactUtilization t.budget t.period ∧
          requested = min (exactUtilization t.budget t.period) (2 ^ 64 - 1) ∧
          existing = s.registry.load ∧ limit = bound
  /-- Whether it is refused for its weight shows in its first section. -/
  refusesAtOnce : ∀ (resolver : Resolver) (now : Instant) (t : TaskInfo),
    s.registry.held = false → ∀ requested existing limit,
      (s.register resolver now t).1 = .error (.admissionFailed requested existing limit) ↔
        Activity.begin s now (.register t) =
          (s, .answered (.error (.admissionFailed requested existing limit)))

namespace Scheduler

/-- Only the check of a candidate refuses for the weight. -/
theorem register_eq_admissionFailed_iff {s : Scheduler} (hfree : s.registry.held = false)
    (resolver : Resolver) (now : Instant) (t : TaskInfo) (requested existing limit : ℕ) :
    (s.register resolver now t).1 = .error (.admissionFailed requested existing limit) ↔
      (∃ first, s.checkTiming now t = .ok first) ∧
        s.checkCandidate t = .error (.admissionFailed requested existing limit) := by
  rw [register_eq hfree]
  unfold vet
  cases htiming : s.checkTiming now t with
  | error e =>
      rw [checkTiming_eq_error htiming]
      simp
  | ok first =>
      cases hcandidate : s.checkCandidate t with
      | error e => simp
      | ok _ =>
          cases hresolve : resolve resolver t.id with
          | ok handle => simp
          | error e =>
              unfold resolve at hresolve
              split at hresolve <;> cases hresolve
              simp

end Scheduler

namespace System

/-- A state within the bound admits exactly. -/
theorem Admitted.exactlyAdmits {c : Config} {y : System} (h : y.Admitted c)
    (hbound : c.utilizationBound.toNat < 2 ^ 64 - 1) :
    y.scheduler.ExactlyAdmits c.utilizationBound.toNat := by
  have hwithin : y.scheduler.registry.Within y.scheduler.config.utilizationBound.toNat := by
    rw [h.config]
    exact h.within
  refine ⟨h.within.load_le, ?_, ?_, ?_, ?_⟩
  · unfold Scheduler.utilization Registry.enter
    cases y.scheduler.registry.held with
    | true => rfl
    | false => exact congrArg Except.ok (h.within.totalUtilization_eq hbound)
  · intro hne
    have htimings : y.scheduler.registry.timings ≠ [] := by simpa [Registry.timings] using hne
    have hsum := ratio_sum_lt h.within.served htimings
    have hlength : y.scheduler.registry.timings.length = y.scheduler.registry.entries.length := by
      simp [Registry.timings]
    rw [hlength, Registry.timings, List.map_map] at hsum
    refine hsum.trans_le ?_
    gcongr
    exact h.within.load_le
  · intro resolver now t hfree hnew hperiod hbudget hfirst requested existing limit
    obtain ⟨first, hfirst⟩ := Option.isSome_iff_exists.1 hfirst
    have htiming := Scheduler.checkTiming_eq_ok_iff.2 ⟨hperiod, hbudget, hfirst⟩
    rw [Scheduler.register_eq_admissionFailed_iff hfree,
      hwithin.checkCandidate_eq (by rwa [h.config]) hperiod, hnew, h.config]
    constructor
    · rintro ⟨-, herror⟩
      simp only [Bool.false_eq_true, if_false] at herror
      split at herror
      · cases herror
      · next hexceeds =>
          cases herror
          exact ⟨by omega, rfl, rfl, rfl⟩
    · rintro ⟨hexceeds, rfl, rfl, rfl⟩
      refine ⟨⟨first, htiming⟩, ?_⟩
      rw [if_neg (by simp), if_neg (by omega)]
  · intro resolver now t hfree requested existing limit
    rw [Scheduler.register_eq_admissionFailed_iff hfree, Activity.begin_register hfree]
    cases htiming : y.scheduler.checkTiming now t with
    | error e =>
        rw [Scheduler.checkTiming_eq_error htiming]
        simp
    | ok first =>
        cases hcandidate : y.scheduler.checkCandidate t with
        | error e => simp
        | ok _ => simp

/-- **Every state of a run admits exactly**, whoever has come, gone and yielded in it. -/
theorem exactlyAdmits_after {c : Config} {s : Scheduler} (hs : Scheduler.new c = .ok s)
    (run : List Action) :
    ((idle s).after run).scheduler.ExactlyAdmits c.utilizationBound.toNat := by
  obtain ⟨hvalid, rfl⟩ := Scheduler.new_eq_ok hs
  have hbound : c.utilizationBound.toNat < 2 ^ 64 - 1 := by
    have hle : c.utilizationBound.toNat ≤ 1000 := UInt64.le_iff_toNat_le.1 hvalid.bound.2
    omega
  have hadmitted : ((idle (Scheduler.ofConfig c)).after run).Admitted c :=
    (kept_idle c).invariant (admitted_idle c) run fun m _ z hz h => h.act hz hbound m
  exact hadmitted.exactlyAdmits hbound

/-- Two tasks are registered, with budgets that do not divide their periods, and the second one
yields. -/
def filling : List Action :=
  .invoke (.register ⟨⟨1⟩, Duration.ofMillis 7, Duration.ofMillis 2⟩) ::
    sections 0 4 Instant.start ++
  .invoke (.register ⟨⟨2⟩, Duration.ofMillis 3, Duration.ofMillis 1⟩) ::
    sections 1 4 Instant.start ++
  .invoke (.beginYield ⟨2⟩) :: sections 2 5 Instant.start

theorem exactlyAdmits_after_filling :
    Scheduler.new Config.default = .ok (Scheduler.ofConfig Config.default) ∧
      ((idle (Scheduler.ofConfig Config.default)).after filling).scheduler.utilization = .ok 618 ∧
      (((idle (Scheduler.ofConfig Config.default)).after filling).scheduler.register
        (fun id => some ⟨id.number⟩) Instant.start
        ⟨⟨3⟩, Duration.ofMillis 13, Duration.ofMillis 1⟩).1 =
          .error (.admissionFailed 76 618 693) ∧
      ((idle (Scheduler.ofConfig Config.default)).after filling).scheduler.ExactlyAdmits 693 :=
  ⟨rfl, by decide, by decide +kernel, exactlyAdmits_after (c := Config.default) rfl filling⟩

end System

end RateMonotonic
