/-
**The lineup**: who competes for the slot, in order.

The slot's holder goes on before the tasks of its period, so it competes as if it stood at the front
of its period.  With the holder put back there, the queue is the *lineup*.  An evaluation does not
change the lineup; it makes the first of it the holder.  So how a release or a departure changes the
lineup can be said without a word about grants and preemptions.

Main definitions:
* `Schedule.lineup` — the queue with the slot's holder put back;
* `Schedule.Settled` — nobody in the queue has a claim to the slot.

Main results:
* `Schedule.Sound.evaluate_of_settled` — evaluating a settled schedule changes nothing;
* `Schedule.Sound.settled_evaluate` — **one evaluation settles a schedule**;
* `Schedule.Settled.eq_lineup` — the holder of a settled schedule is the first of its lineup, and
  its queue is the rest;
* `Schedule.lineup_evaluate` — **an evaluation keeps the lineup**;
* `Schedule.mem_lineup_iff` — the lineup are the tasks that do not sleep;
* `Schedule.lineup_release`, `Schedule.lineup_withdraw`, `Schedule.lineup_put` — what events do to
  the lineup.
-/

import RateMonotonic.Proofs.ScheduleInvariant

set_option relaxedAutoImplicit false
set_option autoImplicit false

namespace RateMonotonic

namespace Schedule

variable {s : Schedule} {n : ℕ}

/-! ### Settled schedules -/

/-- Nobody in the queue has a claim to the slot: scheduling has ended, nobody is queued, or the
holder's period is at most that of everybody queued. -/
def Settled (s : Schedule) : Prop :=
  s.stopped = true ∨ s.ready.row = [] ∨
    ∃ id t, s.current = some id ∧ s.task? id = some t ∧ ∀ x ∈ s.ready.row, t.period ≤ x.2

/-- Everybody in an ascending row has at least the period of the first. -/
theorem le_of_mem_row {x y : TaskId × Duration} {rest : Row} (h : s.Sound)
    (hrow : s.ready.row = x :: rest) (hy : y ∈ x :: rest) : x.2 ≤ y.2 := by
  have hascending := h.order.ascending
  rw [hrow] at hascending
  rcases List.mem_cons.1 hy with rfl | hy
  · exact Nat.le_refl _
  · exact (List.pairwise_cons.1 hascending).1 y hy

/-- The row without its first task. -/
theorem without_head {head : TaskId} {p : Duration} {rest : Row} (h : s.Sound)
    (hrow : s.ready.row = (head, p) :: rest) : s.ready.row.without head = rest := by
  have honce := h.order.once
  rw [ReadyQueue.ids_eq_map_row, hrow, List.map_cons] at honce
  have hnot := (List.nodup_cons.1 honce).1
  have hrest : ∀ x ∈ rest, x.1 ≠ head := fun x hx heq =>
    hnot (List.mem_map.2 ⟨x, hx, heq⟩)
  rw [hrow, Row.without, List.filter_cons_of_neg (by simp)]
  exact List.filter_eq_self.2 fun x hx => by simpa using hrest x hx

/-- Evaluating a settled schedule changes nothing. -/
theorem Sound.evaluate_of_settled (h : s.Sound) (hs : s.Settled) :
    (s.evaluate.1 = .idle ∨ ∃ running head, s.evaluate.1 = .keep running head) ∧
      s.evaluate.2 = s := by
  have hcases := h.evaluates
  generalize s.evaluate.1 = d at hcases
  generalize s.evaluate.2 = next at hcases
  cases hcases with
  | idle _ => exact ⟨Or.inl rfl, rfl⟩
  | keep _ _ _ _ _ => exact ⟨Or.inr ⟨_, _, rfl⟩, rfl⟩
  | grant live row current _ _ _ =>
      rcases hs with hstop | hempty | ⟨id, t, hc, -, -⟩
      · simp [live] at hstop
      · simp [row] at hempty
      · simp [current] at hc
  | preempt live row current task _ lt _ _ _ =>
      rcases hs with hstop | hempty | ⟨id, t, hc, ht, hle⟩
      · simp [live] at hstop
      · simp [row] at hempty
      · rw [current] at hc
        cases hc
        rw [task] at ht
        cases ht
        rw [row] at hle
        exact absurd (hle _ List.mem_cons_self) (Nat.not_le.2 lt)

/-- The row of a schedule that has just given its free slot away. -/
theorem row_award (s : Schedule) (head : TaskId) (u : Task) :
    (s.award head u).ready.row = s.ready.row.without head :=
  ReadyQueue.row_remove s.ready head

/-- **One evaluation settles a schedule.** -/
theorem Sound.settled_evaluate (h : s.Sound) : s.evaluate.2.Settled := by
  have hcases := h.evaluates
  generalize s.evaluate.1 = d at hcases
  generalize s.evaluate.2 = next at hcases
  cases hcases with
  | idle hidle =>
      rcases hidle with hstop | hempty
      · exact Or.inl hstop
      · exact Or.inr (Or.inl hempty)
  | keep _ row current task le =>
      refine Or.inr (Or.inr ⟨_, _, current, task, fun x hx => ?_⟩)
      rw [row] at hx
      exact Nat.le_trans le (le_of_mem_row h row hx)
  | @grant head u p rest _ row _ _ _ period =>
      refine Or.inr (Or.inr ⟨head, u.grant, rfl, task?_award_self s head u, fun x hx => ?_⟩)
      rw [row_award] at hx
      have hmem := (Row.mem_without.1 hx).1
      rw [row] at hmem
      rw [Task.period_grant, period]
      exact le_of_mem_row h row hmem
  | @preempt running head t u p rest _ row _ _ _ lt _ _ period =>
      have htask := task?_displace_head s running head t u
      refine Or.inr (Or.inr ⟨head, u.grant, rfl, htask, fun x hx => ?_⟩)
      rw [Task.period_grant, period]
      rcases ReadyQueue.mem_row_of_mem_insertFront hx with rfl | hx
      · exact Nat.le_of_lt lt
      · rw [ReadyQueue.row_remove] at hx
        have hmem := (Row.mem_without.1 hx).1
        rw [row] at hmem
        exact le_of_mem_row h row hmem

/-! ### The lineup -/

/-- The queue with the slot's holder at the front of its period. -/
def lineup (s : Schedule) : Row :=
  match s.holder? with
  | none => s.ready.row
  | some (id, t) => s.ready.row.ahead (id, t.period)

theorem lineup_of_free (hc : s.current = none) : s.lineup = s.ready.row := by
  simp only [lineup, Sound.holder?_eq_none hc]

theorem lineup_of_held {id : TaskId} {t : Task} (hc : s.current = some id)
    (ht : s.task? id = some t) : s.lineup = s.ready.row.ahead (id, t.period) := by
  simp only [lineup, Sound.holder?_eq hc ht]

/-- **The holder of a settled schedule is the first of its lineup, and its queue is the rest.** -/
theorem Settled.eq_lineup (hs : s.Settled) (h : s.Sound) (hlive : s.stopped = false) :
    s.current = s.lineup.head?.map Prod.fst ∧ s.ready.row = s.lineup.tail := by
  rcases hs with hstop | hempty | ⟨id, t, hc, ht, hle⟩
  · rw [hlive] at hstop
    cases hstop
  · cases hc : s.current with
    | none => simp [lineup_of_free hc, hempty]
    | some id =>
        obtain ⟨t, ht, -⟩ := h.holds id hc
        simp [lineup_of_held hc ht, hempty, Row.ahead]
  · rw [lineup_of_held hc ht, Row.ahead_eq_cons hle]
    exact ⟨hc, rfl⟩

/-- **An evaluation keeps the lineup.** -/
theorem lineup_evaluate (h : s.Sound) (hn : s.Complete n) (hlt : n + 1 < 2 ^ 63) :
    s.evaluate.2.lineup = s.lineup := by
  have hcases := h.evaluates
  generalize s.evaluate.1 = d at hcases
  generalize s.evaluate.2 = next at hcases
  cases hcases with
  | idle _ => rfl
  | keep _ _ _ _ _ => rfl
  | @grant head u p rest _ row current _ _ period =>
      have htask := task?_award_self s head u
      rw [lineup_of_held (s := s.award head u) rfl htask, row_award, without_head h row,
        lineup_of_free current, row, Task.period_grant, period]
      exact Row.ahead_eq_cons fun x hx => le_of_mem_row h row (List.mem_cons_of_mem _ hx)
  | @preempt running head t u p rest _ row current task run lt _ _ period =>
      have htask := task?_displace_head s running head t u
      have hrow : (s.displace running t head u).ready.row =
          (s.ready.row.without head).ahead (running, t.period) :=
        hn.row_displace (Nat.lt_of_succ_lt hlt) t u
          (h.not_mem_ids (state_ne_of_task? task run (by simp)))
      rw [lineup_of_held (s := s.displace running t head u) rfl htask, hrow, without_head h row,
        lineup_of_held current task, row, Row.ahead_cons_of_lt rest lt, Task.period_grant, period]
      refine Row.ahead_eq_cons fun x hx => ?_
      rcases Row.mem_ahead.1 hx with rfl | hx
      · exact Nat.le_of_lt lt
      · exact le_of_mem_row h row (List.mem_cons_of_mem _ hx)

/-- **The lineup are the tasks that do not sleep**, while scheduling goes on. -/
theorem mem_lineup_iff (h : s.Sound) (hn : s.Complete n) (hlive : s.stopped = false) {id : TaskId}
    {p : Duration} :
    (id, p) ∈ s.lineup ↔ ∃ t, s.task? id = some t ∧ t.state ≠ .sleeping ∧ t.period = p := by
  have hqueued : (id, p) ∈ s.ready.row ↔
      ∃ t, s.task? id = some t ∧ t.state = .ready ∧ t.period = p := by
    constructor
    · exact h.queued (id, p)
    · rintro ⟨t, ht, hready, rfl⟩
      exact hn.ready id t ht hready
  constructor
  · intro hm
    cases hc : s.current with
    | none =>
        rw [lineup_of_free hc, hqueued] at hm
        obtain ⟨t, ht, hready, hp⟩ := hm
        exact ⟨t, ht, by simp [hready], hp⟩
    | some holder =>
        obtain ⟨u, hu, hrun⟩ := h.holds holder hc
        rw [lineup_of_held hc hu, Row.mem_ahead, hqueued] at hm
        rcases hm with heq | ⟨t, ht, hready, hp⟩
        · cases heq
          exact ⟨u, hu, by simp [hrun], rfl⟩
        · exact ⟨t, ht, by simp [hready], hp⟩
  · rintro ⟨t, ht, hawake, rfl⟩
    cases hstate : t.state with
    | sleeping => exact absurd hstate hawake
    | ready =>
        have hm := hqueued.2 ⟨t, ht, hstate, rfl⟩
        cases hc : s.current with
        | none => rwa [lineup_of_free hc]
        | some holder =>
            obtain ⟨u, hu, -⟩ := h.holds holder hc
            rw [lineup_of_held hc hu, Row.mem_ahead]
            exact Or.inr hm
    | running =>
        rw [lineup_of_held (h.held hlive id t ht hstate) ht, Row.mem_ahead]
        exact Or.inl rfl

/-! ### What events do to the lineup -/

/-- A released task joins behind its period. -/
theorem lineup_release (h : s.Sound) (hn : s.Complete n) {id : TaskId} {t : Task}
    (ht : s.task? id = some t) (hsleep : t.state = .sleeping) :
    (s.release id).2.lineup = s.lineup.behind (id, t.period) := by
  have hnot := h.not_mem_ids (state_ne_of_task? ht hsleep (b := .ready) (by simp))
  have heq : s.release id = (.released,
      { s with tasks := s.tasks.insert id t.release, ready := s.ready.insert id t.period }) := by
    simp [release, ht, hsleep]
  have hcurrent : (s.release id).2.current = s.current := by rw [heq]
  have hrow : (s.release id).2.ready.row = s.ready.row.behind (id, t.period) := by
    rw [heq]
    exact hn.numbered.row_insert hnot t.period
  cases hc : s.current with
  | none => rw [lineup_of_free (hcurrent.trans hc), lineup_of_free hc, hrow]
  | some holder =>
      obtain ⟨u, hu, hrun⟩ := h.holds holder hc
      have hne : id ≠ holder := by
        rintro rfl
        rw [ht] at hu
        cases hu
        rw [hsleep] at hrun
        cases hrun
      have hholder : (s.release id).2.task? holder = some u := by
        rw [heq]
        exact (task?_insert s id holder _ _ _).trans ((if_neg hne).trans hu)
      rw [lineup_of_held (hcurrent.trans hc) hholder, lineup_of_held hc hu, hrow, Row.ahead_behind]

/-- A task that leaves leaves the lineup. -/
theorem lineup_withdraw (h : s.Sound) (id : TaskId) :
    (s.withdraw id).2.lineup = s.lineup.without id := by
  have hrow : (s.withdraw id).2.ready.row = s.ready.row.without id :=
    ReadyQueue.row_remove s.ready id
  cases hc : s.current with
  | none =>
      have hfree : (s.withdraw id).2.current = none := by
        simp [withdraw, slotWithout, holdsSlot, hc]
      rw [lineup_of_free hfree, lineup_of_free hc, hrow]
  | some holder =>
      obtain ⟨u, hu, -⟩ := h.holds holder hc
      rw [lineup_of_held hc hu]
      by_cases hid : holder = id
      · subst hid
        have hfree : (s.withdraw holder).2.current = none := by
          simp [withdraw, slotWithout, holdsSlot, hc]
        rw [lineup_of_free hfree, hrow, Row.without_ahead_self]
      · have hheld : (s.withdraw id).2.current = some holder := by
          exact slotWithout_eq_some_iff.2 ⟨hc, hid⟩
        have hu' : (s.withdraw id).2.task? holder = some u := by
          rw [task?_withdraw, if_neg fun heq => hid heq.symm, hu]
        rw [lineup_of_held hheld hu', hrow, Row.without_ahead h.order.ascending hid]

/-- A new task sleeps, and is not in the lineup. -/
theorem lineup_put (h : s.Sound) {t : Task} (hnew : s.task? t.id = none) :
    (s.put t).lineup = s.lineup := by
  cases hc : s.current with
  | none =>
      have hfree : (s.put t).current = none := hc
      rw [lineup_of_free hfree, lineup_of_free hc]
      rfl
  | some holder =>
      obtain ⟨u, hu, -⟩ := h.holds holder hc
      have hheld : (s.put t).current = some holder := hc
      have hne : t.id ≠ holder := by
        rintro rfl
        rw [hnew] at hu
        cases hu
      have hu' : (s.put t).task? holder = some u := by rw [task?_put, if_neg hne, hu]
      rw [lineup_of_held hheld hu', lineup_of_held hc hu]
      rfl

end Schedule

end RateMonotonic
