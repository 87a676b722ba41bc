/-
**A map of deadlines.**

The simplest thing that timers can be: every pending key has the deadline and the number of its latest
arming, and a turn of the worker looks through all of them and takes the key with the least of these
pairs, if it is due.  There is no agenda here, and armings are counted with natural numbers.

Main definitions:
* `DeadlineMap`, `DeadlineMap.earliest?` — the map, and the key with the least deadline and number;
* `DeadlineMap.act`, `DeadlineMap.reply`, `DeadlineMap.firings` — what events do to it;
* `DeadlineMap.Numbered` — no number is given out twice.

Main results:
* `DeadlineMap.armings_after_le` — how many armings a run makes;
* `DeadlineMap.Numbered.earliest?_eq_some_iff` — which key is the earliest;
* `DeadlineMap.Numbered.firings` — **no arming fires twice**.
-/

import Mathlib.Data.List.Induction
import Mathlib.Data.List.MinMax
import Mathlib.Data.Prod.Lex
import RateMonotonic.Timers.System

set_option relaxedAutoImplicit false
set_option autoImplicit false

namespace RateMonotonic

variable {κ : Type}

/-- Whether an event arms a key. -/
def TimerEvent.isArming : TimerEvent κ → Bool
  | .arm _ _ => true
  | .armWithin _ _ => true
  | _ => false

variable [DecidableEq κ]

/-- **A map of deadlines**: the pending keys, each with the deadline and the number of its latest
arming. -/
structure DeadlineMap (κ : Type) [DecidableEq κ] where
  pending : Table κ (Instant × ℕ)
  /-- The number of armings so far. -/
  armings : ℕ
  /-- The key whose callback runs. -/
  running : Option κ
  /-- Whether everything has been shut down. -/
  closed : Bool

namespace DeadlineMap

variable {m : DeadlineMap κ}

/-! ### The map -/

/-- No deadlines. -/
def empty : DeadlineMap κ := ⟨Table.empty, 0, none, false⟩

/-- A key gets a deadline, in place of the one it had. -/
def arm (m : DeadlineMap κ) (key : κ) (d : Instant) : DeadlineMap κ :=
  if m.closed then m
  else { m with pending := m.pending.insert key (d, m.armings), armings := m.armings + 1 }

/-- A key loses its deadline. -/
def cancel (m : DeadlineMap κ) (key : κ) : DeadlineMap κ :=
  { m with pending := m.pending.erase key }

/-- Whether a deadline with its number comes no later than another. -/
def noLater (v w : Instant × ℕ) : Bool :=
  decide (v.1 < w.1) || (decide (v.1 = w.1) && decide (v.2 ≤ w.2))

/-- The key with the least deadline and number: no other comes before it. -/
def earliest? (m : DeadlineMap κ) : Option (κ × Instant × ℕ) :=
  m.pending.pairs.find? fun x => m.pending.pairs.all fun y => noLater x.2 y.2

/-- The earliest key with its deadline and number, if it is due. -/
def due? (m : DeadlineMap κ) (now : Instant) : Option (κ × Instant × ℕ) :=
  m.earliest?.filter fun x => x.2.1 ≤ now

/-- The map after an event. -/
def act (m : DeadlineMap κ) : TimerEvent κ → DeadlineMap κ
  | .arm key d => m.arm key d
  | .cancel key => m.cancel key
  | .recheck _ => m
  | .armWithin key d => if m.running.isSome then m.arm key d else m
  | .cancelWithin key => if m.running.isSome then m.cancel key else m
  | .turn now =>
      match m.due? now with
      | some (key, _) => { m.cancel key with running := some key }
      | none => { m with running := none }
  | .shutdown => { m with pending := Table.empty, closed := true }

/-- What is learned from an event. -/
def reply (m : DeadlineMap κ) : TimerEvent κ → TimerReply κ
  | .cancel key => .removed (m.pending.contains key)
  | .cancelWithin key =>
      if m.running.isSome then .removed (m.pending.contains key) else .nothing
  | .turn now => .fired ((m.due? now).map Prod.fst)
  | _ => .nothing

/-- The map after a run of events. -/
def after (m : DeadlineMap κ) (run : List (TimerEvent κ)) : DeadlineMap κ := run.foldl act m

theorem after_concat (m : DeadlineMap κ) (run : List (TimerEvent κ)) (e : TimerEvent κ) :
    m.after (run ++ [e]) = (m.after run).act e := List.foldl_append

/-- The numbers of the armings that fire in a run, in order. -/
def firings (m : DeadlineMap κ) : List (TimerEvent κ) → List ℕ
  | [] => []
  | .turn now :: run =>
      ((m.due? now).map fun x => x.2.2).toList ++ (m.act (.turn now)).firings run
  | e :: run => (m.act e).firings run

/-! ### Armings -/

theorem armings_arm_le (m : DeadlineMap κ) (key : κ) (d : Instant) :
    m.armings ≤ (m.arm key d).armings ∧ (m.arm key d).armings ≤ m.armings + 1 := by
  unfold arm
  split
  · exact ⟨Nat.le_refl _, Nat.le_succ _⟩
  · exact ⟨Nat.le_succ _, Nat.le_refl _⟩

/-- An event is at most one arming. -/
theorem armings_act_le (m : DeadlineMap κ) (e : TimerEvent κ) :
    m.armings ≤ (m.act e).armings ∧
      (m.act e).armings ≤ m.armings + if e.isArming then 1 else 0 := by
  cases e with
  | arm key d => exact m.armings_arm_le key d
  | armWithin key d =>
      simp only [act]
      split
      · exact m.armings_arm_le key d
      · exact ⟨Nat.le_refl _, Nat.le_succ _⟩
  | cancelWithin key =>
      simp only [act]
      split <;> exact ⟨Nat.le_refl _, Nat.le_refl _⟩
  | turn now =>
      simp only [act]
      split <;> exact ⟨Nat.le_refl _, Nat.le_refl _⟩
  | _ => exact ⟨Nat.le_refl _, Nat.le_refl _⟩

theorem armings_after_le (m : DeadlineMap κ) (run : List (TimerEvent κ)) :
    m.armings ≤ (m.after run).armings ∧
      (m.after run).armings ≤ m.armings + run.countP TimerEvent.isArming := by
  induction run using List.reverseRecOn with
  | nil => exact ⟨Nat.le_refl _, Nat.le_refl _⟩
  | append_singleton run e ih =>
      have hact := (m.after run).armings_act_le e
      rw [after_concat, List.countP_append, List.countP_singleton]
      omega

/-! ### Numbers -/

/-- No two keys have the same number, and every number has been given out. -/
structure Numbered (m : DeadlineMap κ) : Prop where
  /-- Numbers are given out in order. -/
  below : ∀ key d n, m.pending.get? key = some (d, n) → n < m.armings
  /-- No number is given out twice. -/
  distinct : ∀ key other d e n, m.pending.get? key = some (d, n) →
    m.pending.get? other = some (e, n) → key = other

theorem numbered_empty : (empty : DeadlineMap κ).Numbered where
  below := fun _ _ _ h => by cases h
  distinct := fun _ _ _ _ _ h => by cases h

theorem Numbered.arm (h : m.Numbered) (key : κ) (d : Instant) : (m.arm key d).Numbered := by
  unfold DeadlineMap.arm
  split
  · exact h
  · -- The new number is larger than any that is in use.
    have hcases : ∀ k e n, (m.pending.insert key (d, m.armings)).get? k = some (e, n) →
        (key = k ∧ n = m.armings) ∨ (m.pending.get? k = some (e, n) ∧ n < m.armings) := by
      intro k e n hk
      rw [Table.get?_insert] at hk
      split at hk
      · next heq =>
          cases hk
          exact Or.inl ⟨heq, rfl⟩
      · exact Or.inr ⟨hk, h.below k e n hk⟩
    refine ⟨fun k e n hk => ?_, fun k j e f n hk hj => ?_⟩
    · rcases hcases k e n hk with ⟨-, rfl⟩ | ⟨-, hn⟩
      · exact Nat.lt_succ_self _
      · exact Nat.lt_succ_of_lt hn
    · rcases hcases k e n hk with ⟨rfl, rfl⟩ | ⟨hk, hkn⟩
      · rcases hcases j f _ hj with ⟨rfl, -⟩ | ⟨-, hjn⟩
        · rfl
        · exact absurd hjn (Nat.lt_irrefl _)
      · rcases hcases j f n hj with ⟨-, rfl⟩ | ⟨hj, -⟩
        · exact absurd hkn (Nat.lt_irrefl _)
        · exact h.distinct k j e f n hk hj

/-- Fewer pending keys. -/
theorem Numbered.shrink (h : m.Numbered) {next : DeadlineMap κ} (harmings : next.armings = m.armings)
    (hpending : ∀ key v, next.pending.get? key = some v → m.pending.get? key = some v) :
    next.Numbered :=
  ⟨fun key d n hk => harmings.symm ▸ h.below key d n (hpending key _ hk),
    fun key other d e n hk hj => h.distinct key other d e n (hpending _ _ hk) (hpending _ _ hj)⟩

theorem get?_of_cancel {key other : κ} {v : Instant × ℕ}
    (h : (m.cancel key).pending.get? other = some v) : m.pending.get? other = some v := by
  rw [cancel, Table.get?_erase] at h
  split at h
  · cases h
  · exact h

theorem Numbered.act (h : m.Numbered) (e : TimerEvent κ) : (m.act e).Numbered := by
  have hcancel (key : κ) : (m.cancel key).Numbered := h.shrink rfl fun _ _ => get?_of_cancel
  cases e with
  | arm key d => exact h.arm key d
  | cancel key => exact hcancel key
  | recheck i => exact h
  | armWithin key d =>
      simp only [DeadlineMap.act]
      split
      · exact h.arm key d
      · exact h
  | cancelWithin key =>
      simp only [DeadlineMap.act]
      split
      · exact hcancel key
      · exact h
  | turn now =>
      simp only [DeadlineMap.act]
      split
      · exact h.shrink rfl fun _ _ => get?_of_cancel
      · exact h.shrink rfl fun _ _ hk => hk
  | shutdown => exact h.shrink rfl fun _ _ hk => by cases hk

/-! ### The earliest key -/

theorem noLater_iff {d e : Instant} {n k : ℕ} :
    noLater (d, n) (e, k) = true ↔ d < e ∨ (d = e ∧ n ≤ k) := by
  simp [noLater]

/-- Among several deadlines with their numbers there is one that no other comes before. -/
theorem exists_noLater {α : Type} (f : α → Instant × ℕ) {l : List α} (hl : l ≠ []) :
    ∃ x ∈ l, ∀ y ∈ l, noLater (f x) (f y) = true := by
  -- They are ordered as pairs are, and among those there is a least one.
  let rank : α → ℤ ×ₗ ℕ := fun x => toLex ((f x).1.nanos, (f x).2)
  cases hx : l.argmin rank with
  | none => exact absurd (List.argmin_eq_none.1 hx) hl
  | some x =>
      refine ⟨x, List.argmin_mem hx, fun y hy => noLater_iff.2 ?_⟩
      have hle := List.le_of_mem_argmin hy hx
      rwa [Prod.Lex.toLex_le_toLex, ← Instant.ext_iff] at hle

theorem earliest?_eq_none_iff : m.earliest? = none ↔ ∀ key, m.pending.get? key = none := by
  have hnil : m.earliest? = none ↔ m.pending.pairs = [] := by
    constructor
    · intro hnone
      by_contra hne
      obtain ⟨x, hx, hleast⟩ := exists_noLater Prod.snd hne
      exact List.find?_eq_none.1 hnone x hx (List.all_eq_true.2 hleast)
    · intro hnil
      rw [earliest?, hnil, List.find?_nil]
  rw [hnil, List.eq_nil_iff_forall_not_mem]
  simp only [Prod.forall, Table.mem_pairs_iff, Option.eq_none_iff_forall_ne_some, ne_eq]

/-- **The earliest key** is pending, and no other has a smaller deadline, or the same deadline and a
smaller number. -/
theorem Numbered.earliest?_eq_some_iff (h : m.Numbered) {key : κ} {d : Instant} {n : ℕ} :
    m.earliest? = some (key, d, n) ↔
      m.pending.get? key = some (d, n) ∧ ∀ other e k, m.pending.get? other = some (e, k) →
        d < e ∨ (d = e ∧ n ≤ k) := by
  have hleast : ∀ {x : κ × Instant × ℕ}, m.earliest? = some x →
      m.pending.get? x.1 = some x.2 ∧ ∀ other e k, m.pending.get? other = some (e, k) →
        x.2.1 < e ∨ (x.2.1 = e ∧ x.2.2 ≤ k) := by
    intro x hx
    rw [earliest?] at hx
    have hall := List.find?_some hx
    rw [List.all_eq_true] at hall
    refine ⟨Table.mem_pairs_iff.1 (List.mem_of_find?_eq_some hx), fun other e k hk => ?_⟩
    have hother : (other, e, k) ∈ m.pending.pairs := Table.mem_pairs_iff.2 hk
    exact noLater_iff.1 (hall _ hother)
  refine ⟨fun hx => hleast hx, fun ⟨hpending, hmin⟩ => ?_⟩
  cases hx : m.earliest? with
  | none =>
      rw [earliest?_eq_none_iff.1 hx key] at hpending
      cases hpending
  | some x =>
      -- Two least pairs are the same, and a number belongs to one key.
      obtain ⟨hpx, hminx⟩ := hleast hx
      obtain ⟨k, e, j⟩ := x
      have hle := hmin k e j hpx
      have hge := hminx key d n hpending
      simp only [Instant.lt_def, Instant.ext_iff] at hle hge
      obtain rfl : d = e := Instant.ext (by omega)
      obtain rfl : n = j := by omega
      rw [h.distinct key k d d n hpending hpx]

theorem due?_eq_some_iff {now : Instant} {x : κ × Instant × ℕ} :
    m.due? now = some x ↔ m.earliest? = some x ∧ x.2.1 ≤ now := by
  simp [due?, Option.filter_eq_some_iff]

theorem act_turn_of_due? {now : Instant} {x : κ × Instant × ℕ} (h : m.due? now = some x) :
    m.act (.turn now) = { m.cancel x.1 with running := some x.1 } := by
  simp only [act, h]

/-! ### Firings -/

/-- No event but a turn fires anything. -/
theorem firings_cons_of_ne (m : DeadlineMap κ) {e : TimerEvent κ} (he : ∀ now, e ≠ .turn now)
    (run : List (TimerEvent κ)) : m.firings (e :: run) = (m.act e).firings run := by
  cases e with
  | turn now => exact absurd rfl (he now)
  | _ => rfl

/-- A number that is still in use was in use before, or is new. -/
theorem in_use_act (e : TimerEvent κ) {n : ℕ}
    (hn : (∃ key d, (m.act e).pending.get? key = some (d, n)) ∨ (m.act e).armings ≤ n) :
    (∃ key d, m.pending.get? key = some (d, n)) ∨ m.armings ≤ n := by
  have harm (key : κ) (d : Instant)
      (hn : (∃ k e, (m.arm key d).pending.get? k = some (e, n)) ∨ (m.arm key d).armings ≤ n) :
      (∃ k e, m.pending.get? k = some (e, n)) ∨ m.armings ≤ n := by
    unfold DeadlineMap.arm at hn
    split at hn
    · exact hn
    · rcases hn with ⟨k, e, hk⟩ | hn
      · rw [Table.get?_insert] at hk
        split at hk
        · cases hk
          exact Or.inr (Nat.le_refl _)
        · exact Or.inl ⟨k, e, hk⟩
      · exact Or.inr (Nat.le_of_succ_le hn)
  have hcancel (key : κ)
      (hn : (∃ k e, (m.cancel key).pending.get? k = some (e, n)) ∨ m.armings ≤ n) :
      (∃ k e, m.pending.get? k = some (e, n)) ∨ m.armings ≤ n :=
    hn.imp_left fun ⟨k, e, hk⟩ => ⟨k, e, get?_of_cancel hk⟩
  cases e with
  | arm key d => exact harm key d hn
  | cancel key => exact hcancel key hn
  | recheck i => exact hn
  | armWithin key d =>
      simp only [DeadlineMap.act] at hn
      split at hn
      · exact harm key d hn
      · exact hn
  | cancelWithin key =>
      simp only [DeadlineMap.act] at hn
      split at hn
      · exact hcancel key hn
      · exact hn
  | turn now =>
      simp only [DeadlineMap.act] at hn
      split at hn
      · exact hcancel _ hn
      · exact hn
  | shutdown =>
      refine hn.imp_left ?_
      rintro ⟨k, e, hk⟩
      cases hk

/-- **No arming fires twice.**  What fires in a run was pending before, or is armed in it. -/
theorem Numbered.firings (h : m.Numbered) (run : List (TimerEvent κ)) :
    (m.firings run).Nodup ∧ ∀ n ∈ m.firings run,
      (∃ key d, m.pending.get? key = some (d, n)) ∨ m.armings ≤ n := by
  induction run generalizing m with
  | nil => exact ⟨List.nodup_nil, fun n hn => by cases hn⟩
  | cons e run ih =>
      obtain ⟨hnodup, hmem⟩ := ih (h.act e)
      have hrest : ∀ n ∈ (m.act e).firings run,
          (∃ key d, m.pending.get? key = some (d, n)) ∨ m.armings ≤ n :=
        fun n hn => in_use_act e (hmem n hn)
      cases e with
      | turn now =>
          cases hdue : m.due? now with
          | none =>
              simp only [DeadlineMap.firings, hdue, Option.map_none, Option.toList_none,
                List.nil_append]
              exact ⟨hnodup, hrest⟩
          | some x =>
              simp only [DeadlineMap.firings, hdue, Option.map_some, Option.toList_some,
                List.singleton_append, List.nodup_cons, List.mem_cons]
              have hx := (h.earliest?_eq_some_iff.1 (due?_eq_some_iff.1 hdue).1).1
              refine ⟨⟨fun hagain => ?_, hnodup⟩, ?_⟩
              · -- The number that fires is no longer in use.
                have huse := hmem _ hagain
                rw [act_turn_of_due? hdue] at huse
                rcases huse with ⟨key, d, hk⟩ | hle
                · have heq := h.distinct key x.1 d x.2.1 x.2.2 (get?_of_cancel hk) hx
                  rw [heq] at hk
                  simp [cancel] at hk
                · exact absurd (h.below _ _ _ hx) (Nat.not_lt.2 hle)
              · rintro n (rfl | hn)
                · exact Or.inl ⟨x.1, x.2.1, hx⟩
                · exact hrest n hn
      | _ =>
          rw [firings_cons_of_ne m (fun now => by simp) run]
          exact ⟨hnodup, hrest⟩

/-- What fires has been armed by then. -/
theorem Numbered.lt_of_mem_firings (h : m.Numbered) {run : List (TimerEvent κ)} {n : ℕ}
    (hn : n ∈ m.firings run) : n < (m.after run).armings := by
  induction run generalizing m with
  | nil => cases hn
  | cons e run ih =>
      cases e with
      | turn now =>
          rcases List.mem_append.1 hn with hn | hn
          · obtain ⟨x, hdue, rfl⟩ := Option.map_eq_some_iff.1 (Option.mem_toList.1 hn)
            have hx := (h.earliest?_eq_some_iff.1 (due?_eq_some_iff.1 hdue).1).1
            exact Nat.lt_of_lt_of_le (h.below _ _ _ hx) (m.armings_after_le (.turn now :: run)).1
          · exact ih (h.act _) hn
      | _ => exact ih (h.act _) hn

end DeadlineMap

end RateMonotonic
