/-
**The agenda of the timers, and what an event does to one key.**

The agenda may hold armings that were replaced or cancelled long ago.  Two things make up for that:
it is sorted by deadline and number, and every timer that is pending stands on it.  So the first
arming that is still in force belongs to the earliest of all pending timers, whatever stands before
it.

An event concerns the timer of one key in one of two ways: it arms the key, or there is no timer for
it from then on.  The deadline of a key is therefore told by the latest event that concerned it.

Main definitions:
* `Arming.rank` — armings are ordered by deadline, then by number;
* `Timers.Tidy` — the agenda is sorted and complete, and empty after the shutdown;
* `TimerSystem.touch`, `TimerSystem.Untouched` — what an event does to a key, and a run that leaves a
  key alone.

Main results:
* `Timers.Tidy.next?_eq_some`, `Timers.Tidy.next?_eq_none_iff` — **the next timer is the earliest of
  those that are pending**;
* `Timers.poll_eq` — the worker takes the next timer if it is due;
* `TimerSystem.tidy_act`, `TimerSystem.tidy_after` — every event keeps the agenda tidy;
* `TimerSystem.deadline?_act` — what an event does to the deadline of a key;
* `TimerSystem.deadline?_after_iff` — **a key is pending as it was last armed**, unless something has
  ended that since.
-/

import Mathlib.Data.List.Induction
import Mathlib.Data.List.TakeWhile
import Mathlib.Data.Prod.Lex
import RateMonotonic.Timers.System

set_option relaxedAutoImplicit false
set_option autoImplicit false

namespace RateMonotonic

variable {κ : Type}

/-! ### The order of armings -/

namespace Arming

/-- Armings are ordered by deadline, then by number. -/
def rank (a : Arming κ) : ℤ ×ₗ ℕ := toLex (a.deadline.nanos, a.number.toNat)

theorem before_iff {a b : Arming κ} : a.before b = true ↔ a.rank < b.rank := by
  simp only [before, rank, Prod.Lex.toLex_lt_toLex, Bool.or_eq_true, Bool.and_eq_true,
    decide_eq_true_eq, Instant.lt_def, Instant.ext_iff, UInt64.lt_iff_toNat_lt]

end Arming

namespace Timers

/-! ### Placing an arming -/

theorem mem_place {a b : Arming κ} {l : List (Arming κ)} : b ∈ place a l ↔ b = a ∨ b ∈ l := by
  induction l with
  | nil => simp [place]
  | cons c l ih =>
      simp only [place]
      split
      · simp
      · rw [List.mem_cons, ih, List.mem_cons]
        exact or_left_comm

theorem pairwise_place (a : Arming κ) {l : List (Arming κ)}
    (h : l.Pairwise fun b c => b.rank ≤ c.rank) :
    (place a l).Pairwise fun b c => b.rank ≤ c.rank := by
  induction l with
  | nil => simp [place]
  | cons b l ih =>
      obtain ⟨hb, hl⟩ := List.pairwise_cons.1 h
      simp only [place]
      split
      · next hab =>
          have hle : a.rank ≤ b.rank := le_of_lt (Arming.before_iff.1 hab)
          refine List.pairwise_cons.2 ⟨fun c hc => ?_, h⟩
          rcases List.mem_cons.1 hc with rfl | hc
          · exact hle
          · exact le_trans hle (hb c hc)
      · next hab =>
          have hle : b.rank ≤ a.rank := le_of_not_gt (mt Arming.before_iff.2 hab)
          refine List.pairwise_cons.2 ⟨fun c hc => ?_, ih hl⟩
          rcases mem_place.1 hc with rfl | hc
          · exact hle
          · exact hb c hc

/-! ### The front of the agenda -/

variable [DecidableEq κ]

/-- The agenda is sorted, and holds every pending timer.  After the shutdown there is none. -/
structure Tidy (t : Timers κ) : Prop where
  /-- Earlier armings stand first. -/
  sorted : t.agenda.Pairwise fun a b => a.rank ≤ b.rank
  /-- Every pending timer stands on the agenda. -/
  listed : ∀ key v, t.pending.get? key = some v → ⟨v.1, v.2, key⟩ ∈ t.agenda
  /-- Nothing is pending after the shutdown. -/
  shut : t.closed = true → ∀ key, t.pending.get? key = none

variable {t : Timers κ}

theorem inForce_iff {a : Arming κ} :
    t.inForce a = true ↔ t.pending.get? a.key = some (a.deadline, a.number) := by
  simp [inForce]

/-- Pruning drops nothing that is in force. -/
theorem mem_prune {a : Arming κ} (ha : a ∈ t.agenda) (hforce : t.inForce a = true) :
    a ∈ t.prune.agenda := by
  rw [← List.takeWhile_append_dropWhile (p := fun b => !t.inForce b) (l := t.agenda)] at ha
  rcases List.mem_append.1 ha with ha | ha
  · have hstale := List.mem_takeWhile_imp ha
    simp [hforce] at hstale
  · exact ha

theorem sublist_prune (t : Timers κ) : t.prune.agenda.Sublist t.agenda :=
  List.dropWhile_sublist _

/-- What comes first is in force. -/
theorem inForce_of_next? {a : Arming κ} (h : t.next? = some a) : t.inForce a = true := by
  have hfront := List.head?_dropWhile_not (fun b => !t.inForce b) t.agenda
  rw [show (t.agenda.dropWhile fun b => !t.inForce b).head? = some a from h] at hfront
  simpa using hfront

/-- **What comes first is the earliest of the pending timers.** -/
theorem Tidy.next?_eq_some (h : t.Tidy) {a : Arming κ} (ha : t.next? = some a) :
    t.pending.get? a.key = some (a.deadline, a.number) ∧
      ∀ key v, t.pending.get? key = some v → a.rank ≤ (⟨v.1, v.2, key⟩ : Arming κ).rank := by
  refine ⟨inForce_iff.1 (inForce_of_next? ha), fun key v hv => ?_⟩
  have hmem : (⟨v.1, v.2, key⟩ : Arming κ) ∈ t.prune.agenda :=
    mem_prune (h.listed key v hv) (inForce_iff.2 hv)
  obtain ⟨rest, hrest⟩ := List.head?_eq_some_iff.1 (show t.prune.agenda.head? = some a from ha)
  have hsorted := h.sorted.sublist t.sublist_prune
  rw [hrest] at hmem hsorted
  rcases List.mem_cons.1 hmem with heq | hmem
  · rw [heq]
  · exact (List.pairwise_cons.1 hsorted).1 _ hmem

/-- Nothing comes first exactly when nothing is pending. -/
theorem Tidy.next?_eq_none_iff (h : t.Tidy) :
    t.next? = none ↔ ∀ key, t.pending.get? key = none := by
  constructor
  · intro hnone key
    rw [Option.eq_none_iff_forall_ne_some]
    intro v hv
    have hmem := mem_prune (h.listed key v hv) (inForce_iff.2 hv)
    rw [List.head?_eq_none_iff.1 (show t.prune.agenda.head? = none from hnone)] at hmem
    cases hmem
  · intro hnone
    rw [Option.eq_none_iff_forall_ne_some]
    intro a ha
    have hforce := inForce_iff.1 (inForce_of_next? ha)
    rw [hnone a.key] at hforce
    cases hforce

/-! ### What the operations do to the agenda -/

/-- **The worker takes the next timer if it is due.** -/
theorem poll_eq (t : Timers κ) (now : Instant) :
    t.poll now =
      if t.closed then (none, t)
      else match t.next? with
        | none => (none, t.prune)
        | some a =>
            if a.deadline ≤ now then
              (some a.key,
                { t with
                  pending := t.pending.erase a.key
                  agenda := t.prune.agenda.tail
                  inFlight := some a.key })
            else (none, t.prune) := by
  unfold poll next?
  cases t.prune.agenda <;> rfl

/-- After the shutdown a worker leaves the timers as they are. -/
theorem poll_of_closed (h : t.closed = true) (now : Instant) : t.poll now = (none, t) := by
  rw [poll_eq, if_pos h]

/-- A worker that takes nothing changes the agenda at most. -/
theorem poll_of_none {now : Instant} (h : (t.poll now).1 = none) :
    ∃ agenda, (t.poll now).2 = { t with agenda := agenda } := by
  rw [poll_eq] at h ⊢
  split at h
  · next hclosed => exact ⟨t.agenda, by rw [if_pos hclosed]⟩
  · next hopen =>
      refine ⟨t.prune.agenda, ?_⟩
      rw [if_neg hopen]
      split at h
      · rfl
      · split at h
        · cases h
        · next hlate =>
            rw [if_neg hlate]
            rfl

/-- What a worker takes is no longer pending, and its callback runs. -/
theorem poll_of_some {now : Instant} {key : κ} (h : (t.poll now).1 = some key) :
    (t.poll now).2 =
      { t with
        pending := t.pending.erase key
        agenda := t.prune.agenda.tail
        inFlight := some key } := by
  rw [poll_eq] at h ⊢
  split at h
  · cases h
  · next hopen =>
      rw [if_neg hopen]
      split at h
      · cases h
      · split at h
        · next hdue =>
            cases h
            rw [if_pos hdue]
        · cases h

theorem tidy_empty : (empty : Timers κ).Tidy where
  sorted := List.Pairwise.nil
  listed := fun _ _ h => by cases h
  shut := fun _ _ => rfl

/-- Fewer pending timers, and an agenda that still holds them. -/
theorem Tidy.shrink (h : t.Tidy) {next : Timers κ} (hagenda : next.agenda.Sublist t.agenda)
    (hpending : ∀ key v, next.pending.get? key = some v →
      t.pending.get? key = some v ∧ (⟨v.1, v.2, key⟩ : Arming κ) ∈ next.agenda)
    (hclosed : next.closed = t.closed) : next.Tidy where
  sorted := h.sorted.sublist hagenda
  listed := fun key v hv => (hpending key v hv).2
  shut := by
    intro hshut key
    rw [Option.eq_none_iff_forall_ne_some]
    intro v hv
    have hbefore := (hpending key v hv).1
    rw [h.shut (hclosed.symm.trans hshut) key] at hbefore
    cases hbefore

theorem Tidy.arm (h : t.Tidy) (key : κ) (d : Instant) : (t.arm key d).Tidy := by
  unfold Timers.arm
  split
  · exact h
  · next hopen =>
      refine ⟨pairwise_place _ h.sorted, fun k v hv => ?_, fun hshut => absurd hshut hopen⟩
      rw [Table.get?_insert] at hv
      split at hv
      · next hk =>
          cases hv
          exact mem_place.2 (Or.inl (by rw [hk]))
      · exact mem_place.2 (Or.inr (h.listed k v hv))

theorem Tidy.cancel (h : t.Tidy) (key : κ) : (t.cancel key).Tidy := by
  refine h.shrink (List.Sublist.refl _) (fun k v hv => ?_) rfl
  have hbefore : t.pending.get? k = some v := by
    rw [Timers.cancel, Table.get?_erase] at hv
    split at hv
    · cases hv
    · exact hv
  exact ⟨hbefore, h.listed k v hbefore⟩

theorem Tidy.prune (h : t.Tidy) : t.prune.Tidy :=
  h.shrink t.sublist_prune (fun k v hv => ⟨hv, mem_prune (h.listed k v hv) (inForce_iff.2 hv)⟩) rfl

theorem Tidy.finish (h : t.Tidy) : t.finish.Tidy := ⟨h.sorted, h.listed, h.shut⟩

theorem tidy_shutdown (t : Timers κ) : t.shutdown.Tidy where
  sorted := List.Pairwise.nil
  listed := fun _ _ h => by cases h
  shut := fun _ _ => rfl

theorem Tidy.poll (h : t.Tidy) (now : Instant) : (t.poll now).2.Tidy := by
  rw [poll_eq]
  split
  · exact h
  · split
    · exact h.prune
    · next a ha =>
        split
        · -- The timer that is taken was pending, and no other timer is its arming.
          obtain ⟨rest, hrest⟩ :=
            List.head?_eq_some_iff.1 (show t.prune.agenda.head? = some a from ha)
          refine h.shrink ((List.tail_sublist _).trans t.sublist_prune) (fun k v hv => ?_) rfl
          simp only [Table.get?_erase] at hv
          split at hv
          · cases hv
          · next hk =>
              have hmem := mem_prune (h.listed k v hv) (inForce_iff.2 hv)
              rw [hrest] at hmem
              refine ⟨hv, ?_⟩
              simp only [hrest, List.tail_cons]
              refine (List.mem_cons.1 hmem).resolve_left fun heq => hk ?_
              rw [← heq]
        · exact h.prune

/-- What a poll takes is the next timer, if it is due. -/
theorem Tidy.poll_fst (h : t.Tidy) (now : Instant) :
    (t.poll now).1 = (t.next?.filter fun a => a.deadline ≤ now).map (·.key) := by
  rw [poll_eq]
  split
  · next hclosed =>
      rw [h.next?_eq_none_iff.2 (h.shut hclosed)]
      rfl
  · cases t.next? with
    | none => rfl
    | some a =>
        by_cases hdue : a.deadline ≤ now
        · simp [Option.filter, hdue]
        · simp [Option.filter, hdue]

/-- A poll that takes nothing leaves all timers pending, and none of them is due. -/
theorem Tidy.poll_eq_none (h : t.Tidy) {now : Instant} (hp : (t.poll now).1 = none) :
    (∀ key, (t.poll now).2.deadline? key = t.deadline? key) ∧
      ∀ key d, t.deadline? key = some d → now < d := by
  have hdue : ∀ key d, t.deadline? key = some d → ∃ n, t.pending.get? key = some (d, n) := by
    intro key d hd
    obtain ⟨v, hv, rfl⟩ := Option.map_eq_some_iff.1 hd
    exact ⟨v.2, hv⟩
  rw [poll_eq] at hp ⊢
  split at hp
  · next hclosed =>
      rw [if_pos hclosed]
      refine ⟨fun _ => rfl, fun key d hd => ?_⟩
      obtain ⟨n, hn⟩ := hdue key d hd
      rw [h.shut hclosed key] at hn
      cases hn
  · next hopen =>
      rw [if_neg hopen]
      split at hp
      · next hnone =>
          refine ⟨fun _ => rfl, fun key d hd => ?_⟩
          obtain ⟨n, hn⟩ := hdue key d hd
          rw [h.next?_eq_none_iff.1 hnone key] at hn
          cases hn
      · next a ha =>
          split at hp
          · cases hp
          · next hlate =>
              rw [if_neg hlate]
              refine ⟨fun _ => rfl, fun key d hd => ?_⟩
              obtain ⟨n, hn⟩ := hdue key d hd
              have hle := (h.next?_eq_some ha).2 key (d, n) hn
              rw [Arming.rank, Arming.rank, Prod.Lex.toLex_le_toLex] at hle
              simp only [Instant.le_def, Instant.lt_def] at hlate hle ⊢
              omega

end Timers

namespace TimerSystem

variable [DecidableEq κ] {s : TimerSystem κ}

/-! ### Every event keeps the agenda tidy -/

theorem tidy_act (h : s.timers.Tidy) (e : TimerEvent κ) : (s.act e).timers.Tidy := by
  cases e with
  | arm key d => exact h.arm key d
  | cancel key => exact h.cancel key
  | recheck i => exact h
  | armWithin key d =>
      cases hrun : s.running with
      | true => simpa [act, hrun] using h.arm key d
      | false => simpa [act, hrun] using h
  | cancelWithin key =>
      cases hrun : s.running with
      | true => simpa [act, hrun] using h.cancel key
      | false => simpa [act, hrun] using h
  | turn now => exact h.finish.poll now
  | shutdown => exact Timers.tidy_shutdown s.timers

theorem tidy_after (h : s.timers.Tidy) (run : List (TimerEvent κ)) :
    (s.after run).timers.Tidy := by
  induction run generalizing s with
  | nil => exact h
  | cons e run ih => exact ih (tidy_act h e)

/-- What a turn takes is the next timer, if it is due. -/
theorem turn_fst (h : s.timers.Tidy) (now : Instant) :
    (s.turn now).1 = (s.timers.next?.filter fun a => a.deadline ≤ now).map (·.key) :=
  h.finish.poll_fst now

/-! ### The shutdown -/

theorem closed_act (h : s.timers.closed = true) (e : TimerEvent κ) :
    (s.act e).timers.closed = true := by
  cases e with
  | arm key d => exact (Timers.closed_arm s.timers key d).trans h
  | armWithin key d =>
      simp only [act]
      split
      · exact (Timers.closed_arm s.timers key d).trans h
      · exact h
  | cancelWithin key =>
      simp only [act]
      split <;> exact h
  | turn now =>
      have hpoll : s.turn now = (none, s.timers.finish) :=
        Timers.poll_of_closed (t := s.timers.finish) h now
      simp only [act, hpoll]
      exact h
  | shutdown => rfl
  | _ => exact h

theorem closed_after {run : List (TimerEvent κ)} (h : .shutdown ∈ run) :
    (s.after run).timers.closed = true := by
  induction run using List.reverseRecOn with
  | nil => cases h
  | append_singleton run e ih =>
      rw [after_concat]
      rcases List.mem_append.1 h with h | h
      · exact closed_act (ih h) e
      · rw [← List.mem_singleton.1 h]
        rfl

/-! ### What an event does to one key -/

/-- What an event does to the timer of a key: nothing, or it arms the key with a deadline, or there is
no timer for it from then on. -/
def touch (s : TimerSystem κ) (key : κ) : TimerEvent κ → Option (Option Instant)
  | .arm k d => if k = key ∧ s.timers.closed = false then some (some d) else none
  | .cancel k => if k = key then some none else none
  | .recheck _ => none
  | .armWithin k d =>
      if k = key ∧ s.timers.closed = false ∧ s.running = true then some (some d) else none
  | .cancelWithin k => if k = key ∧ s.running = true then some none else none
  | .turn now => if (s.turn now).1 = some key then some none else none
  | .shutdown => some none

/-- No event of a run does anything to the timer of a key. -/
def Untouched (s : TimerSystem κ) (key : κ) (run : List (TimerEvent κ)) : Prop :=
  ∀ before e, before ++ [e] <+: run → (s.after before).touch key e = none

theorem untouched_nil (s : TimerSystem κ) (key : κ) : s.Untouched key [] := by
  intro before e h
  simp at h

theorem untouched_concat_iff {key : κ} {run : List (TimerEvent κ)} {e : TimerEvent κ} :
    s.Untouched key (run ++ [e]) ↔
      s.Untouched key run ∧ (s.after run).touch key e = none := by
  constructor
  · intro h
    exact ⟨fun before f hf => h before f (hf.trans (List.prefix_append _ _)),
      h run e (List.prefix_refl _)⟩
  · rintro ⟨hrun, he⟩ before f hf
    rcases List.prefix_concat_iff.1 hf with heq | hf
    · obtain ⟨rfl, hlast⟩ := List.append_inj' heq rfl
      cases hlast
      exact he
    · exact hrun before f hf

/-- Arming a key, as far as another key is concerned too. -/
theorem deadline?_arm (t : Timers κ) (k key : κ) (d : Instant) :
    (t.arm k d).deadline? key =
      (if k = key ∧ t.closed = false then some (some d) else none).getD (t.deadline? key) := by
  cases hclosed : t.closed with
  | true => simp [Timers.arm_of_shutdown hclosed]
  | false =>
      rw [Timers.deadline?_arm t hclosed]
      by_cases hk : k = key <;> simp [hk]

theorem deadline?_cancel (t : Timers κ) (k key : κ) :
    (t.cancel k).deadline? key =
      (if k = key then some none else none).getD (t.deadline? key) := by
  rw [Timers.deadline?_cancel]
  split <;> rfl

/-- **What an event does to a key is told by `touch`.** -/
theorem deadline?_act (h : s.timers.Tidy) (e : TimerEvent κ) (key : κ) :
    (s.act e).timers.deadline? key = (s.touch key e).getD (s.timers.deadline? key) := by
  cases e with
  | arm k d => exact deadline?_arm s.timers k key d
  | cancel k => exact deadline?_cancel s.timers k key
  | recheck i => rfl
  | armWithin k d =>
      cases hrun : s.running with
      | true => simpa [act, touch, hrun] using deadline?_arm s.timers k key d
      | false => simp [act, touch, hrun]
  | cancelWithin k =>
      cases hrun : s.running with
      | true => simpa [act, touch, hrun] using deadline?_cancel s.timers k key
      | false => simp [act, touch, hrun]
  | turn now =>
      have hfinish : s.timers.finish.deadline? key = s.timers.deadline? key := rfl
      have htouch : s.touch key (.turn now) =
          if (s.timers.finish.poll now).1 = some key then some none else none := rfl
      show (s.timers.finish.poll now).2.deadline? key = _
      cases hturn : (s.timers.finish.poll now).1 with
      | none =>
          rw [htouch, hturn, (h.finish.poll_eq_none hturn).1 key, hfinish]
          rfl
      | some k =>
          obtain ⟨-, -, -, -, hothers⟩ := Timers.poll_eq_some (Prod.ext hturn rfl)
          rw [htouch, hturn, hothers key, hfinish]
          by_cases hk : k = key <;> simp [hk]
  | shutdown => rfl

/-- **A key is pending as it was last armed**, unless something has ended that since. -/
theorem deadline?_after_iff (h : s.timers.Tidy) {key : κ} {d : Instant}
    {run : List (TimerEvent κ)} :
    (s.after run).timers.deadline? key = some d ↔
      (s.timers.deadline? key = some d ∧ s.Untouched key run) ∨
        ∃ before e since, run = before ++ e :: since ∧
          (s.after before).touch key e = some (some d) ∧
            (s.after (before ++ [e])).Untouched key since := by
  induction run using List.reverseRecOn with
  | nil => simp [untouched_nil]
  | append_singleton run f ih =>
      rw [after_concat, deadline?_act (tidy_after h run)]
      constructor
      · intro hd
        cases htouch : (s.after run).touch key f with
        | none =>
            rw [htouch, Option.getD_none] at hd
            rcases ih.1 hd with ⟨hbefore, hrun⟩ | ⟨before, e, since, rfl, he, hsince⟩
            · exact Or.inl ⟨hbefore, untouched_concat_iff.2 ⟨hrun, htouch⟩⟩
            · refine Or.inr ⟨before, e, since ++ [f], by simp, he, untouched_concat_iff.2 ⟨hsince, ?_⟩⟩
              rw [← after_append]
              simpa using htouch
        | some v =>
            rw [htouch, Option.getD_some] at hd
            subst hd
            exact Or.inr ⟨run, f, [], rfl, htouch, untouched_nil _ _⟩
      · rintro (⟨hbefore, hrun⟩ | ⟨before, e, since, heq, he, hsince⟩)
        · obtain ⟨hrun, htouch⟩ := untouched_concat_iff.1 hrun
          rw [htouch]
          exact ih.2 (Or.inl ⟨hbefore, hrun⟩)
        · rcases List.eq_nil_or_concat since with rfl | ⟨init, g, rfl⟩
          · obtain ⟨rfl, hlast⟩ := List.append_inj' heq rfl
            cases hlast
            rw [he]
            rfl
          · rw [List.concat_eq_append, ← List.cons_append, ← List.append_assoc] at heq
            obtain ⟨rfl, hlast⟩ := List.append_inj' heq rfl
            cases hlast
            rw [List.concat_eq_append, untouched_concat_iff, ← after_append] at hsince
            have hall : before ++ [e] ++ init = before ++ e :: init := by simp
            rw [hall] at hsince
            rw [hsince.2]
            exact ih.2 (Or.inr ⟨before, e, init, rfl, he, hsince.1⟩)

/-- What fires was pending, and due. -/
theorem deadline?_of_fired {now : Instant} {key : κ} (h : s.reply (.turn now) = .fired (some key)) :
    ∃ d, s.timers.deadline? key = some d ∧ d ≤ now := by
  have hturn : (s.timers.finish.poll now).1 = some key := TimerReply.fired.inj h
  obtain ⟨-, -, -, hdue, -⟩ := Timers.poll_eq_some (Prod.ext hturn rfl)
  exact hdue

end TimerSystem

end RateMonotonic
