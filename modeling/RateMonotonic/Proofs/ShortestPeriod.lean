/-
**The slot goes to the shortest period.**

After an evaluation nobody who is ready has a shorter period than the slot's holder.  The slot
changes hands for no less: only to the head of the queue, and only if it was free or its holder's
period is strictly longer.  Whoever loses it waits ahead of everybody of his period, and nobody else
is touched.

Main definitions:
* `Row.Leads` — a task stands ahead of everybody of at least its period;
* `Schedule.Dispatches` — what an evaluation guarantees about the schedules before and after it.

Main results:
* `Schedule.Sound.dispatches` — **every evaluation gives the slot to the shortest period**;
* `Scheduler.evaluate_dispatches`, `System.evaluate_dispatches_after` — so does every evaluation of
  a run, whole operations or sections of them.
-/

import RateMonotonic.Proofs.Lineup
import RateMonotonic.Proofs.System

set_option relaxedAutoImplicit false
set_option autoImplicit false

namespace RateMonotonic

/-! ### The front of a period -/

namespace Row

/-- A task stands ahead of everybody of at least its period. -/
def Leads (x : TaskId × Duration) (l : Row) : Prop :=
  ∃ before after, l = before ++ x :: after ∧ ∀ y ∈ before, y.2 < x.2

@[simp] theorem not_leads_nil {x : TaskId × Duration} : ¬ Leads x [] := by
  rintro ⟨before, after, heq, -⟩
  simp at heq

/-- A task leads its period at the very front, or behind those with shorter periods. -/
theorem leads_cons_iff {x y : TaskId × Duration} {l : Row} :
    Leads x (y :: l) ↔ y = x ∨ y.2 < x.2 ∧ Leads x l := by
  constructor
  · rintro ⟨before, after, heq, hbefore⟩
    cases before with
    | nil => exact Or.inl (List.cons.inj heq).1
    | cons z before =>
        obtain ⟨rfl, rfl⟩ := List.cons.inj heq
        exact Or.inr ⟨hbefore y List.mem_cons_self, before, after, rfl,
          fun w hw => hbefore w (List.mem_cons_of_mem y hw)⟩
  · rintro (rfl | ⟨hlt, before, after, rfl, hbefore⟩)
    · exact ⟨[], l, rfl, by simp⟩
    · refine ⟨y :: before, after, rfl, fun w hw => ?_⟩
      rcases List.mem_cons.1 hw with rfl | hw
      · exact hlt
      · exact hbefore w hw

/-- A task that joins ahead of its period leads it. -/
theorem leads_ahead_self (x : TaskId × Duration) (l : Row) : Leads x (ahead x l) := by
  induction l with
  | nil => exact leads_cons_iff.2 (Or.inl rfl)
  | cons z l ih =>
      simp only [ahead, List.orderedInsert_cons] at ih ⊢
      split
      · exact leads_cons_iff.2 (Or.inl rfl)
      · next hle => exact leads_cons_iff.2 (Or.inr ⟨Nat.lt_of_not_le hle, ih⟩)

end Row

namespace Schedule

variable {s next : Schedule} {n : ℕ} {d : Decision}

/-! ### What an evaluation guarantees -/

/-- Those in a row who hold the slot neither in one schedule nor in another. -/
def bystanders (s next : Schedule) (l : Row) : Row :=
  l.filter fun x => decide (s.current ≠ some x.1) && decide (next.current ≠ some x.1)

/-- What is guaranteed of an evaluation that takes one schedule to another. -/
structure Dispatches (s : Schedule) (d : Decision) (next : Schedule) : Prop where
  /-- The slot is free only if nobody is queued. -/
  free : next.current = none → next.ready.ids = []
  /-- The holder is running, and its period is at most that of every ready task. -/
  shortest : ∀ id, next.current = some id → ∃ t, next.task? id = some t ∧ t.state = .running ∧
    ∀ j u, next.task? j = some u → u.state = .ready → t.period ≤ u.period
  /-- The slot changes hands only to the head of the queue, and only if it was free or its holder
  had a longer period. -/
  winner : next.current ≠ s.current → ∃ id u, next.current = some id ∧
    s.ready.ids.head? = some id ∧ s.task? id = some u ∧ next.task? id = some u.grant ∧
      (s.current = none ∨ ∃ old t, s.current = some old ∧ s.task? old = some t ∧
        u.period < t.period)
  /-- A holder who loses the slot is ready, at the front of its period. -/
  putBack : ∀ old, s.current = some old → next.current ≠ some old →
    ∃ t, s.task? old = some t ∧ next.task? old = some t.preempt ∧ t.preempt.state = .ready ∧
      Row.Leads (old, t.period) next.ready.row
  /-- Without a change of hands nothing changes. -/
  kept : next.current = s.current → next = s
  /-- Nobody but the old and the new holder changes. -/
  others : ∀ id, s.current ≠ some id → next.current ≠ some id → next.task? id = s.task? id
  /-- Everybody else stays in his place in the queue. -/
  order : bystanders s next next.ready.row = bystanders s next s.ready.row
  /-- There is nothing to decide exactly when nobody is queued. -/
  idle_iff : d = .idle ↔ s.ready.ids = []
  /-- Whoever holds the slot or is queued has a record. -/
  recorded : ∀ id, s.current = some id ∨ id ∈ s.ready.ids → ∃ t, s.task? id = some t
  /-- A second evaluation decides nothing, and changes nothing. -/
  settled : (next.evaluate.1 = .idle ∨ ∃ running head, next.evaluate.1 = .keep running head) ∧
    next.evaluate.2 = next

theorem Sound.recorded (h : s.Sound) {id : TaskId} (hid : s.current = some id ∨ id ∈ s.ready.ids) :
    ∃ t, s.task? id = some t := by
  rcases hid with hc | hq
  · obtain ⟨t, ht, -⟩ := h.holds id hc
    exact ⟨t, ht⟩
  · rw [ReadyQueue.ids_eq_map_row] at hq
    obtain ⟨x, hx, rfl⟩ := List.mem_map.1 hq
    obtain ⟨t, ht, -⟩ := h.queued x hx
    exact ⟨t, ht⟩

theorem ids_eq_nil_iff : s.ready.ids = [] ↔ s.ready.row = [] := by
  rw [ReadyQueue.ids_eq_map_row, List.map_eq_nil_iff]

theorem head?_ids_of_row {head : TaskId} {p : Duration} {rest : Row}
    (h : s.ready.row = (head, p) :: rest) : s.ready.ids.head? = some head := by
  rw [ReadyQueue.ids_eq_map_row, h]
  rfl

/-- Two tasks in different states are different tasks. -/
theorem ne_of_state_ne {i j : TaskId} {t u : Task} (ht : s.task? i = some t)
    (hu : s.task? j = some u) (hne : t.state ≠ u.state) : i ≠ j := by
  rintro rfl
  rw [ht] at hu
  cases hu
  exact hne rfl

/-- In a live schedule that is settled, the slot is free only if nobody is queued, and nobody who is
ready has a shorter period than the holder. -/
theorem Settled.shortest (h : s.Settled) (hc : s.Complete n) (hlive : s.stopped = false) :
    (s.current = none → s.ready.ids = []) ∧
      ∀ id t, s.current = some id → s.task? id = some t →
        ∀ j u, s.task? j = some u → u.state = .ready → t.period ≤ u.period := by
  rcases h with hstop | hempty | ⟨id, t, hcur, ht, hle⟩
  · rw [hlive] at hstop
    cases hstop
  · refine ⟨fun _ => ids_eq_nil_iff.2 hempty, fun id t _ _ j u hu hready => ?_⟩
    have hm := hc.ready j u hu hready
    rw [hempty] at hm
    cases hm
  · refine ⟨fun hfree => ?_, fun id' t' hcur' ht' j u hu hready => ?_⟩
    · rw [hcur] at hfree
      cases hfree
    · rw [hcur] at hcur'
      cases hcur'
      rw [ht] at ht'
      cases ht'
      exact hle _ (hc.ready j u hu hready)

/-! ### Who wins, who loses, who stands by -/

theorem Evaluates.winner (h : s.Evaluates d next) (hne : next.current ≠ s.current) :
    ∃ id u, next.current = some id ∧ s.ready.ids.head? = some id ∧ s.task? id = some u ∧
      next.task? id = some u.grant ∧
        (s.current = none ∨ ∃ old t, s.current = some old ∧ s.task? old = some t ∧
          u.period < t.period) := by
  cases h with
  | idle _ => exact absurd rfl hne
  | keep _ _ _ _ _ => exact absurd rfl hne
  | @grant head u _ _ _ row current task _ _ =>
      exact ⟨head, u, rfl, head?_ids_of_row row, task, task?_award_self s head u, Or.inl current⟩
  | @preempt running head t u _ _ _ row current task _ lt headTask _ period =>
      exact ⟨head, u, rfl, head?_ids_of_row row, headTask, task?_displace_head s running head t u,
        Or.inr ⟨running, t, current, task, period ▸ lt⟩⟩

theorem Evaluates.kept (h : s.Evaluates d next) (heq : next.current = s.current) : next = s := by
  cases h with
  | idle _ => rfl
  | keep _ _ _ _ _ => rfl
  | grant _ _ current _ _ _ =>
      rw [current] at heq
      cases heq
  | preempt _ _ current task run _ headTask ready _ =>
      rw [current] at heq
      have hne := ne_of_state_ne task headTask (by simp [run, ready])
      exact absurd (Option.some.inj heq).symm hne

theorem Evaluates.others (h : s.Evaluates d next) {id : TaskId} (hold : s.current ≠ some id)
    (hnew : next.current ≠ some id) : next.task? id = s.task? id := by
  cases h with
  | idle _ => rfl
  | keep _ _ _ _ _ => rfl
  | @grant head _ _ _ _ _ _ _ _ _ =>
      exact (task?_insert s head id _ _ _).trans (if_neg fun heq => hnew (congrArg some heq))
  | preempt _ _ current _ _ _ _ _ _ =>
      rw [task?_displace, if_neg fun heq => hnew (congrArg some heq),
        if_neg fun heq => hold (current.trans (congrArg some heq))]

theorem Evaluates.putBack (h : s.Evaluates d next) (hs : s.Sound) (hc : s.Complete n)
    (hn : n < 2 ^ 63) {old : TaskId} (hold : s.current = some old)
    (hlost : next.current ≠ some old) :
    ∃ t, s.task? old = some t ∧ next.task? old = some t.preempt ∧ t.preempt.state = .ready ∧
      Row.Leads (old, t.period) next.ready.row := by
  cases h with
  | idle _ => exact absurd hold hlost
  | keep _ _ _ _ _ => exact absurd hold hlost
  | grant _ _ current _ _ _ =>
      rw [current] at hold
      cases hold
  | @preempt running head t u _ _ _ _ current task run _ headTask ready _ =>
      rw [current] at hold
      cases hold
      have hne := ne_of_state_ne task headTask (by simp [run, ready])
      have hnot := hs.not_mem_ids (state_ne_of_task? task run (b := .ready) (by simp))
      refine ⟨t, task, ?_, rfl, ?_⟩
      · rw [task?_displace, if_neg hne.symm, if_pos rfl]
      · rw [hc.row_displace hn t u hnot]
        exact Row.leads_ahead_self _ _

theorem bystanders_of_free (hs : s.current = none) {new : TaskId} (hn : next.current = some new)
    (l : Row) : bystanders s next l = l.without new := by
  simp only [bystanders, Row.without, hs, hn]
  refine List.filter_congr fun x _ => ?_
  simp [eq_comm]

theorem bystanders_of_held {old new : TaskId} (hs : s.current = some old)
    (hn : next.current = some new) (l : Row) :
    bystanders s next l = (l.without old).without new := by
  simp only [bystanders, Row.without, hs, hn, List.filter_filter]
  refine List.filter_congr fun x _ => ?_
  simp [eq_comm, Bool.and_comm]

theorem Evaluates.order (h : s.Evaluates d next) (hs : s.Sound) (hc : s.Complete n)
    (hn : n < 2 ^ 63) : bystanders s next next.ready.row = bystanders s next s.ready.row := by
  cases h with
  | idle _ => rfl
  | keep _ _ _ _ _ => rfl
  | @grant head u _ _ _ _ current _ _ _ =>
      rw [bystanders_of_free current rfl, bystanders_of_free current rfl, row_award]
      simp [Row.without, List.filter_filter]
  | @preempt running head t u _ _ _ _ current task run _ _ _ _ =>
      have hnot := hs.not_mem_ids (state_ne_of_task? task run (b := .ready) (by simp))
      -- The old holder joins the queue, the new one leaves it, and neither counts.
      rw [bystanders_of_held current rfl, bystanders_of_held current rfl,
        hc.row_displace hn t u hnot, Row.without_ahead_self]
      simp only [Row.without, List.filter_filter]
      refine List.filter_congr fun x _ => ?_
      by_cases hx : x.1 = head <;> simp [hx]

theorem Evaluates.idle_iff (h : s.Evaluates d next) (hlive : s.stopped = false) :
    d = .idle ↔ s.ready.ids = [] := by
  rw [ids_eq_nil_iff]
  cases h with
  | idle hidle =>
      refine iff_of_true rfl (hidle.resolve_left ?_)
      rw [hlive]
      exact Bool.false_ne_true
  | keep _ row _ _ _ => simp [row]
  | grant _ row _ _ _ _ => simp [row]
  | preempt _ row _ _ _ _ _ _ _ => simp [row]

/-- **Every evaluation gives the slot to the shortest period**, and disturbs nobody without need. -/
theorem Sound.dispatches (h : s.Sound) (hc : s.Complete n) (hn : n < 2 ^ 63)
    (hlive : s.stopped = false) : s.Dispatches s.evaluate.1 s.evaluate.2 := by
  have hsettled := h.settled_evaluate
  obtain ⟨hfree, hshortest⟩ := hsettled.shortest (hc.evaluate h hn) (h.stopped_evaluate.trans hlive)
  exact {
    free := hfree
    shortest := by
      intro id hid
      obtain ⟨t, ht, hrun⟩ := h.evaluate.holds id hid
      exact ⟨t, ht, hrun, hshortest id t hid ht⟩
    winner := h.evaluates.winner
    putBack := fun _ => h.evaluates.putBack h hc hn
    kept := h.evaluates.kept
    others := fun _ => h.evaluates.others
    order := h.evaluates.order h hc hn
    idle_iff := h.evaluates.idle_iff hlive
    recorded := fun _ => h.recorded
    settled := h.evaluate.evaluate_of_settled hsettled }

end Schedule

/-! ### Runs -/

namespace Scheduler

/-- **Every evaluation of a run gives the slot to the shortest period.** -/
theorem evaluate_dispatches {c : Config} {s : Scheduler} (hs : Scheduler.new c = .ok s)
    (run : List Transition) (hrun : run.length < 2 ^ 63)
    (hlive : (s.after run).schedule.stopped = false) :
    (s.after run).schedule.Dispatches (s.after run).schedule.evaluate.1
      (s.after run).schedule.evaluate.2 := by
  obtain ⟨-, rfl⟩ := new_eq_ok hs
  have hkept := (kept_ofConfig c).after run (by omega)
  exact hkept.sound.dispatches hkept.complete (by omega) hlive

/-- A task is granted the slot, and a task of a shorter period is released. -/
def challenge : List Transition := overtaking.dropLast

/-- The slot changes hands, and the loser waits at the front of its period. -/
theorem evaluate_dispatches_challenge :
    let s := ((ofConfig Config.default).after challenge).schedule
    challenge.length < 2 ^ 63 ∧ s.stopped = false ∧ s.current = some ⟨1⟩ ∧
      s.evaluate.2.current = some ⟨2⟩ ∧ s.evaluate.2.ready.ids = [⟨1⟩] ∧
      s.Dispatches s.evaluate.1 s.evaluate.2 :=
  ⟨by decide, by decide, by decide, by decide, by decide,
    evaluate_dispatches (c := Config.default) rfl challenge (by decide) (by decide)⟩

end Scheduler

namespace System

/-- So does every evaluation in a run of sections and steps. -/
theorem evaluate_dispatches_after (c : Config) (run : List Action) (hrun : run.length < 2 ^ 63)
    (hlive : ((idle (Scheduler.ofConfig c)).after run).scheduler.schedule.stopped = false) :
    let s := ((idle (Scheduler.ofConfig c)).after run).scheduler.schedule
    s.Dispatches s.evaluate.1 s.evaluate.2 :=
  have hcomplete := (kept_idle c).complete_after (n := 0) Schedule.complete_empty run (by omega)
  ((kept_idle c).after run).sound.dispatches hcomplete (by omega) hlive

end System

end RateMonotonic
