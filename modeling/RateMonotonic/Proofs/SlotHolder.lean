/-
**Who holds the slot.**

Only an evaluation gives the slot to anybody.  Whatever else happens to a schedule leaves its holder
alone, record and all, or takes the slot from him; a confirmation marks the holder's record, and
leaves him the slot.

Main definitions:
* `Schedule.HolderKept` — whoever holds the slot held it before, with the same record;
* `Schedule.HolderFrom` — whoever holds the slot held it before, as the same task.

Main results:
* `Schedule.Sound.holderKept_release`, `Schedule.Sound.holderKept_yields` and others — **no step but
  an evaluation or a confirmation touches the holder**;
* `Schedule.Sound.holderFrom_confirm` — a confirmation leaves the slot where it is.
-/

import RateMonotonic.Proofs.RegistryAgreement

set_option relaxedAutoImplicit false
set_option autoImplicit false

namespace RateMonotonic

namespace Schedule

variable {s next : Schedule}

/-- Whoever holds the slot held it before, with the same record. -/
def HolderKept (s next : Schedule) : Prop :=
  ∀ id, next.current = some id → s.current = some id ∧ next.task? id = s.task? id

/-- Whoever holds the slot held it before, as the same task. -/
def HolderFrom (s next : Schedule) : Prop :=
  ∀ id t, next.current = some id → next.task? id = some t →
    s.current = some id ∧ ∃ u, s.task? id = some u ∧ u.entry = t.entry

theorem HolderKept.refl (s : Schedule) : s.HolderKept s := fun _ hc => ⟨hc, rfl⟩

theorem holderKept_of_free (h : next.current = none) : s.HolderKept next := by
  intro id hc
  rw [h] at hc
  cases hc

theorem HolderKept.holderFrom (h : s.HolderKept next) : s.HolderFrom next := by
  intro id t hc ht
  obtain ⟨hc', hsame⟩ := h id hc
  exact ⟨hc', t, hsame.symm.trans ht, rfl⟩

/-- Storing a record of somebody who does not hold the slot. -/
theorem HolderKept.store {id : TaskId} {u : Task} {q : ReadyQueue} {c : Option TaskId}
    (hid : c ≠ some id) (hslot : ∀ j, c = some j → s.current = some j) :
    s.HolderKept { s with tasks := s.tasks.insert id u, ready := q, current := c } := by
  intro j hj
  refine ⟨hslot j hj, ?_⟩
  rw [task?_insert, if_neg]
  rintro rfl
  exact hid hj

/-! ### Steps that leave the slot alone, or take it -/

theorem Sound.holderKept_release (h : s.Sound) (id : TaskId) : s.HolderKept (s.release id).2 := by
  rcases release_cases s id with ⟨t, ht, hsleep, heq⟩ | ⟨-, heq⟩
  · rw [heq]
    exact .store (h.current_ne (state_ne_of_task? ht hsleep (by simp))) fun _ hj => hj
  · rw [heq]
    exact .refl s

theorem Yields.holderKept {id : TaskId} {now : Instant} {y : YieldResult}
    (h : s.Yields id now y next) : s.HolderKept next := by
  have hself : s.slotWithout id ≠ some id := fun hc => (slotWithout_eq_some_iff.1 hc).2 rfl
  have hslot : ∀ j, s.slotWithout id = some j → s.current = some j :=
    fun j hj => (slotWithout_eq_some_iff.1 hj).1
  cases h with
  | nothing _ _ => exact .refl s
  | sleep _ _ _ => exact .store hself hslot
  | requeue _ _ _ => exact .store hself hslot

theorem holderKept_withdraw (s : Schedule) (id : TaskId) : s.HolderKept (s.withdraw id).2 := by
  intro j hj
  obtain ⟨hc, hne⟩ := slotWithout_eq_some_iff.1 hj
  exact ⟨hc, (task?_withdraw s id j).trans (if_neg hne.symm)⟩

theorem Sound.holderKept_put (h : s.Sound) {t : Task} (hnew : s.task? t.id = none) :
    s.HolderKept (s.put t) := by
  intro j hj
  obtain ⟨u, hu, -⟩ := h.holds j hj
  refine ⟨hj, ?_⟩
  rw [task?_put, if_neg]
  rintro rfl
  rw [hnew] at hu
  cases hu

/-- A yield that frees the slot leaves nobody on it. -/
theorem Yields.current_of_freed {id : TaskId} {now : Instant} {y : YieldResult}
    (h : s.Yields id now y next) (hfreed : y.freedSlot = true) : next.current = none := by
  cases h with
  | nothing _ _ => cases hfreed
  | sleep _ _ _ => exact if_pos hfreed
  | requeue _ _ _ => exact if_pos hfreed

/-! ### Confirmations -/

theorem Sound.current_confirm (h : s.Sound) (id : TaskId) :
    (s.confirm id).2.current = s.current := by
  rcases h.confirm_cases id with ⟨t, -, -, -, -, heq⟩ | ⟨-, heq⟩ <;> rw [heq]

theorem Sound.holderFrom_confirm (h : s.Sound) (id : TaskId) : s.HolderFrom (s.confirm id).2 := by
  intro j t hc ht
  have hmap := h.sameEntries_confirm id j
  rw [ht] at hmap
  obtain ⟨u, hu, hentry⟩ := Option.map_eq_some_iff.1 hmap.symm
  exact ⟨(h.current_confirm id).symm.trans hc, u, hu, hentry⟩

end Schedule

end RateMonotonic
