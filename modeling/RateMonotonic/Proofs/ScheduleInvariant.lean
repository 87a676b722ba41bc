/-
**What holds of every schedule.**

The records, the queue and the slot are coupled: a queued task is ready, the slot's holder is
running, and nobody else is.  Every step of the schedule changes the record of one task, or of two
when one preempts another, so all steps are covered by one lemma about storing a record.

The coupling does not depend on the numbers in the queue.  That every ready task *is* queued does:
it holds as long as no counter has gone round, which is the second invariant.

Main definitions:
* `Schedule.Sound` — queue and slot agree with the records;
* `Schedule.Complete` — every ready task is queued, after at most so many steps;
* `Schedule.Evaluates`, `Schedule.Yields` — what evaluating the schedule, or ending a job, can do;
* `Decision.grantee` — the task that a decision gives the slot to.

Main results:
* `Schedule.Sound.evaluates` — **an evaluation does one of four things**, and the head of the queue
  always has a record;
* `Schedule.Sound.evaluate`, `Schedule.Sound.release` and others — every step keeps a schedule
  sound;
* `Schedule.Complete.evaluate`, `Schedule.Complete.release` and others — and complete.
-/

import RateMonotonic.Proofs.QueueOrder
import RateMonotonic.Schedule

set_option relaxedAutoImplicit false
set_option autoImplicit false

namespace RateMonotonic

/-- The task that a decision gives the slot to. -/
def Decision.grantee : Decision → Option TaskId
  | .grant task _ => some task
  | .preempt _ _ task _ => some task
  | _ => none

namespace Schedule

/-- Queue and slot agree with the records. -/
structure Sound (s : Schedule) : Prop where
  /-- The queue is sorted, and no task stands in it twice. -/
  order : s.ready.InOrder
  /-- A queued task is ready, and is queued by its period. -/
  queued : ∀ x ∈ s.ready.row, ∃ t, s.task? x.1 = some t ∧ t.state = .ready ∧ t.period = x.2
  /-- The slot's holder is running. -/
  holds : ∀ id, s.current = some id → ∃ t, s.task? id = some t ∧ t.state = .running
  /-- Before the end of scheduling, a running task holds the slot. -/
  held : s.stopped = false →
    ∀ id t, s.task? id = some t → t.state = .running → s.current = some id
  /-- At most one task is running. -/
  alone : ∀ i j t u, s.task? i = some t → s.task? j = some u →
    t.state = .running → u.state = .running → i = j
  /-- After the end of scheduling nobody holds the slot. -/
  emptied : s.stopped = true → s.current = none
  /-- A task with a job that has not been dispatched is ready. -/
  pending : ∀ id t, s.task? id = some t → t.jobPending = true → t.state = .ready
  /-- A task whose grant has been confirmed is running. -/
  resumed : ∀ id t, s.task? id = some t → t.resumed = true → t.state = .running

/-- Every ready task is queued by its period, and numbers last for at most so many steps. -/
structure Complete (n : ℕ) (s : Schedule) : Prop where
  /-- The counters have given out at most `n` numbers each. -/
  numbered : s.ready.Numbered n
  /-- A ready task is queued. -/
  ready : ∀ id t, s.task? id = some t → t.state = .ready → (id, t.period) ∈ s.ready.row

theorem sound_empty : empty.Sound where
  order := ReadyQueue.inOrder_empty
  queued := by simp [empty, ReadyQueue.row, ReadyQueue.empty]
  holds := by simp [empty]
  held := by simp [empty, task?]
  alone := by simp [empty, task?]
  emptied := by simp [empty]
  pending := by simp [empty, task?]
  resumed := by simp [empty, task?]

theorem complete_empty : empty.Complete 0 where
  numbered := ReadyQueue.numbered_empty
  ready := by simp [empty, task?]

theorem Complete.mono {s : Schedule} {n m : ℕ} (h : s.Complete n) (hm : n ≤ m) : s.Complete m :=
  ⟨h.numbered.mono hm, h.ready⟩

theorem task?_insert (s : Schedule) (id j : TaskId) (u : Task) (q : ReadyQueue)
    (c : Option TaskId) :
    ({ s with tasks := s.tasks.insert id u, ready := q, current := c } : Schedule).task? j =
      if id = j then some u else s.task? j :=
  Table.get?_insert s.tasks id j u

theorem task?_insert_self {s : Schedule} {id : TaskId} {u : Task} {q : ReadyQueue}
    {c : Option TaskId} :
    ({ s with tasks := s.tasks.insert id u, ready := q, current := c } : Schedule).task? id =
      some u :=
  (task?_insert s id id u q c).trans (if_pos rfl)

theorem task?_insert_of_ne {s : Schedule} {id j : TaskId} {u : Task} {q : ReadyQueue}
    {c : Option TaskId} (hj : j ≠ id) :
    ({ s with tasks := s.tasks.insert id u, ready := q, current := c } : Schedule).task? j =
      s.task? j :=
  (task?_insert s id j u q c).trans (if_neg hj.symm)

/-! ### Reading a sound schedule -/

/-- Who is not ready is not queued. -/
theorem Sound.not_mem_row {s : Schedule} (h : s.Sound) {id : TaskId}
    (hid : ∀ t, s.task? id = some t → t.state ≠ .ready) (p : Duration) :
    (id, p) ∉ s.ready.row := by
  intro hm
  obtain ⟨t, ht, hready, -⟩ := h.queued _ hm
  exact hid t ht hready

theorem Sound.not_mem_ids {s : Schedule} (h : s.Sound) {id : TaskId}
    (hid : ∀ t, s.task? id = some t → t.state ≠ .ready) : id ∉ s.ready.ids := by
  intro hm
  rw [ReadyQueue.ids_eq_map_row] at hm
  obtain ⟨x, hx, rfl⟩ := List.mem_map.1 hm
  exact h.not_mem_row hid x.2 hx

/-- Who is not running does not hold the slot. -/
theorem Sound.current_ne {s : Schedule} (h : s.Sound) {id : TaskId}
    (hid : ∀ t, s.task? id = some t → t.state ≠ .running) : s.current ≠ some id := by
  intro hc
  obtain ⟨t, ht, hrun⟩ := h.holds id hc
  exact hid t ht hrun

/-- A task whose record is known to be in one state is in no other. -/
theorem state_ne_of_task? {s : Schedule} {id : TaskId} {t : Task} {a b : TaskState}
    (ht : s.task? id = some t) (ha : t.state = a) (hab : a ≠ b) :
    ∀ v, s.task? id = some v → v.state ≠ b := by
  intro v hv
  rw [ht] at hv
  cases hv
  rwa [ha]

theorem Sound.holder?_eq {s : Schedule} {id : TaskId} {t : Task} (hc : s.current = some id)
    (ht : s.task? id = some t) : s.holder? = some (id, t) := by
  simp [holder?, hc, ht]

theorem Sound.holder?_eq_none {s : Schedule} (hc : s.current = none) : s.holder? = none := by
  simp [holder?, hc]

/-! ### Storing a record -/

/-- **Storing a record** keeps a schedule sound if queue and slot follow it. -/
theorem Sound.store {s : Schedule} (h : s.Sound) {id : TaskId} {u : Task} {q : ReadyQueue}
    {c : Option TaskId} (order : q.InOrder)
    (others : ∀ x ∈ q.row, x.1 ≠ id → x ∈ s.ready.row)
    (own : ∀ p, (id, p) ∈ q.row → u.state = .ready ∧ u.period = p)
    (slot : u.state = .running ↔ c = some id)
    (slotOthers : ∀ j, j ≠ id → (c = some j ↔ s.current = some j))
    (live : s.stopped = true → c ≠ some id)
    (pending : u.jobPending = true → u.state = .ready)
    (resumed : u.resumed = true → u.state = .running) :
    ({ s with tasks := s.tasks.insert id u, ready := q, current := c } : Schedule).Sound := by
  -- Every field speaks of the stored record at `id` and of the old one elsewhere.
  have hget := task?_insert s id (u := u) (q := q) (c := c)
  refine ⟨order, ?_, ?_, ?_, ?_, ?_, ?_, ?_⟩
  · rintro ⟨j, p⟩ hx
    simp only [hget]
    split
    · next hj =>
        subst hj
        exact ⟨u, rfl, own p hx⟩
    · next hj => exact h.queued (j, p) (others _ hx fun hj' => hj hj'.symm)
  · intro j hj
    rw [hget]
    split
    · next hid =>
        subst hid
        exact ⟨u, rfl, slot.2 hj⟩
    · next hid => exact h.holds j ((slotOthers j fun hj' => hid hj'.symm).1 hj)
  · intro hlive j t ht hrun
    rw [hget] at ht
    split at ht
    · next hid =>
        subst hid
        cases ht
        exact slot.1 hrun
    · next hid => exact (slotOthers j fun hj' => hid hj'.symm).2 (h.held hlive j t ht hrun)
  · -- The stored record is running only while scheduling goes on, and then its task has the slot.
    have hothers : u.state = .running → ∀ j t, id ≠ j → s.task? j = some t →
        t.state ≠ .running := by
      intro hu j t hj ht hrun
      cases hstop : s.stopped with
      | true => exact live hstop (slot.1 hu)
      | false =>
          have hcur := (slotOthers j hj.symm).2 (h.held hstop j t ht hrun)
          rw [slot.1 hu] at hcur
          exact hj (Option.some.inj hcur)
    intro i j t v ht hv hrt hrv
    rw [hget] at ht hv
    split at ht <;> split at hv
    · next hi hj => exact hi.symm.trans hj
    · next hi hj =>
        cases ht
        exact absurd hrv (hothers hrt j v hj hv)
    · next hi hj =>
        cases hv
        exact absurd hrt (hothers hrv i t hi ht)
    · exact h.alone i j t v ht hv hrt hrv
  · intro hstop
    cases hc : c with
    | none => rfl
    | some j =>
        by_cases hj : j = id
        · exact absurd (hj ▸ hc) (live hstop)
        · have := (slotOthers j hj).1 hc
          rw [h.emptied hstop] at this
          cases this
  · intro j t ht
    rw [hget] at ht
    split at ht
    · cases ht
      exact pending
    · exact h.pending j t ht
  · intro j t ht
    rw [hget] at ht
    split at ht
    · cases ht
      exact resumed
    · exact h.resumed j t ht

/-- Storing a record keeps a schedule complete if the queue follows it. -/
theorem Complete.store {s : Schedule} {n m : ℕ} (h : s.Complete n) {id : TaskId} {u : Task}
    {q : ReadyQueue} {c : Option TaskId} (numbered : q.Numbered m)
    (others : ∀ x ∈ s.ready.row, x.1 ≠ id → x ∈ q.row)
    (own : u.state = .ready → (id, u.period) ∈ q.row) :
    ({ s with tasks := s.tasks.insert id u, ready := q, current := c } : Schedule).Complete m := by
  refine ⟨numbered, fun j t ht hready => ?_⟩
  rw [task?_insert] at ht
  split at ht
  · next hj =>
      subst hj
      cases ht
      exact own hready
  · next hj => exact others _ (h.ready j t ht hready) fun hj' => hj hj'.symm

/-! ### Evaluating the schedule -/

/-- The schedule after its free slot has been given to the head of the queue. -/
def award (s : Schedule) (head : TaskId) (u : Task) : Schedule :=
  { s with
    tasks := s.tasks.insert head u.grant
    ready := s.ready.remove head
    current := some head }

/-- The schedule after its slot has been taken from one task and given to the head of the queue. -/
def displace (s : Schedule) (running : TaskId) (t : Task) (head : TaskId) (u : Task) : Schedule :=
  { s with
    tasks := (s.tasks.insert running t.preempt).insert head u.grant
    ready := (s.ready.remove head).insertFront running t.period
    current := some head }

theorem task?_award_self (s : Schedule) (head : TaskId) (u : Task) :
    (s.award head u).task? head = some u.grant :=
  task?_insert_self

theorem grant_eq {s : Schedule} {id : TaskId} {t : Task} (ht : s.task? id = some t) :
    s.grant id = (some t.handle, s.award id t) := by
  simp [grant, ht, award]

theorem fillSlot_eq {s : Schedule} {head : TaskId} {u : Task} (hu : s.task? head = some u) :
    s.fillSlot head = (.grant head u.handle, s.award head u) := by
  have hgrant := grant_eq (s := { s with current := none }) hu
  simp only [fillSlot, hgrant]
  rfl

theorem preemptFor_eq {s : Schedule} {running head : TaskId} {u : Task} (t : Task)
    (hne : running ≠ head) (hu : s.task? head = some u) :
    s.preemptFor running t head =
      (.preempt running t.handle head u.handle, s.displace running t head u) := by
  -- Demoting the one task leaves the record of the other alone.
  have hgrant := grant_eq
    (s := { s with tasks := s.tasks.insert running t.preempt, current := none })
    ((Table.get?_insert_of_ne s.tasks hne t.preempt).trans hu)
  simp only [preemptFor, hgrant]
  rfl

/-- What evaluating a schedule can do. -/
inductive Evaluates (s : Schedule) : Decision → Schedule → Prop where
  | idle (h : s.stopped = true ∨ s.ready.row = []) : Evaluates s .idle s
  | keep {running head : TaskId} {t : Task} {p : Duration} {rest : Row}
      (live : s.stopped = false) (row : s.ready.row = (head, p) :: rest)
      (current : s.current = some running) (task : s.task? running = some t)
      (le : t.period ≤ p) : Evaluates s (.keep running head) s
  | grant {head : TaskId} {u : Task} {p : Duration} {rest : Row}
      (live : s.stopped = false) (row : s.ready.row = (head, p) :: rest)
      (current : s.current = none) (task : s.task? head = some u) (ready : u.state = .ready)
      (period : u.period = p) : Evaluates s (.grant head u.handle) (s.award head u)
  | preempt {running head : TaskId} {t u : Task} {p : Duration} {rest : Row}
      (live : s.stopped = false) (row : s.ready.row = (head, p) :: rest)
      (current : s.current = some running) (task : s.task? running = some t)
      (run : t.state = .running) (lt : p < t.period) (headTask : s.task? head = some u)
      (ready : u.state = .ready) (period : u.period = p) :
      Evaluates s (.preempt running t.handle head u.handle) (s.displace running t head u)

/-- **An evaluation does one of four things.**  The head of the queue always has a record, so no
grant comes to nothing. -/
theorem Sound.evaluates {s : Schedule} (h : s.Sound) :
    s.Evaluates s.evaluate.1 s.evaluate.2 := by
  cases hlive : s.stopped with
  | true =>
      rw [evaluate_of_stopped hlive]
      exact .idle (Or.inl hlive)
  | false =>
      cases hrow : s.ready.row with
      | nil =>
          have hhead : s.ready.head? = none := by rw [ReadyQueue.head?_eq_row, hrow]; rfl
          have heq : s.evaluate = (.idle, s) := by simp [evaluate, hlive, hhead]
          rw [heq]
          exact .idle (Or.inr hrow)
      | cons x rest =>
          obtain ⟨head, p⟩ := x
          have hhead : s.ready.head? = some (head, p) := by
            rw [ReadyQueue.head?_eq_row, hrow]
            rfl
          obtain ⟨u, hu, hready, hp⟩ := h.queued (head, p) (by simp [hrow])
          simp only at hu hp
          cases hc : s.current with
          | none =>
              have heq : s.evaluate = (.grant head u.handle, s.award head u) := by
                simp only [evaluate, hlive, hhead, Sound.holder?_eq_none hc, fillSlot_eq hu,
                  Bool.false_eq_true, if_false]
              rw [heq]
              exact .grant hlive hrow hc hu hready hp
          | some running =>
              obtain ⟨t, ht, hrun⟩ := h.holds running hc
              have hholder := Sound.holder?_eq hc ht
              by_cases hlt : p < t.period
              · have hne : running ≠ head := by
                  rintro rfl
                  rw [ht] at hu
                  cases hu
                  rw [hrun] at hready
                  cases hready
                have heq : s.evaluate =
                    (.preempt running t.handle head u.handle, s.displace running t head u) := by
                  simp only [evaluate, hlive, hhead, hholder, hlt, preemptFor_eq t hne hu,
                    Bool.false_eq_true, if_false, if_true]
                rw [heq]
                exact .preempt hlive hrow hc ht hrun hlt hu hready hp
              · have heq : s.evaluate = (.keep running head, s) := by
                  simp [evaluate, hlive, hhead, hholder, hlt]
                rw [heq]
                refine .keep hlive hrow hc ht ?_
                simp only [Duration.lt_def, Duration.le_def] at hlt ⊢
                omega

theorem Sound.award {s : Schedule} (h : s.Sound) {head : TaskId} {u : Task}
    (live : s.stopped = false) (hc : s.current = none) : (s.award head u).Sound := by
  refine h.store (h.order.remove head) ?_ ?_ (by simp) ?_ ?_ (by simp) (by simp)
  · intro x hx _
    rw [ReadyQueue.row_remove] at hx
    exact (Row.mem_without.1 hx).1
  · intro p hp
    rw [ReadyQueue.row_remove] at hp
    exact absurd rfl (Row.mem_without.1 hp).2
  · intro j hj
    rw [hc]
    simp [hj.symm]
  · intro hstop
    rw [live] at hstop
    cases hstop

theorem Complete.award {s : Schedule} {n : ℕ} (h : s.Complete n) (head : TaskId) (u : Task) :
    (s.award head u).Complete n := by
  refine h.store (h.numbered.remove head) (fun x hx hne => ?_) (by simp)
  rw [ReadyQueue.row_remove]
  exact Row.mem_without.2 ⟨hx, hne⟩

/-- Putting a ready task back at the front of its period keeps a schedule sound. -/
theorem Sound.putBack {s : Schedule} (h : s.Sound) {id : TaskId} {t : Task}
    (ht : s.task? id = some t) (hready : t.state = .ready) :
    ({ s with ready := s.ready.insertFront id t.period } : Schedule).Sound where
  order := h.order.insertFront id t.period
  queued := by
    intro x hx
    rcases ReadyQueue.mem_row_of_mem_insertFront hx with rfl | hx
    · exact ⟨t, ht, hready, rfl⟩
    · exact h.queued x hx
  holds := h.holds
  held := h.held
  alone := h.alone
  emptied := h.emptied
  pending := h.pending
  resumed := h.resumed

theorem task?_displace (s : Schedule) (running head id : TaskId) (t u : Task) :
    (s.displace running t head u).task? id =
      if head = id then some u.grant else if running = id then some t.preempt else s.task? id := by
  show ((s.tasks.insert running t.preempt).insert head u.grant).get? id = _
  rw [Table.get?_insert, Table.get?_insert]
  rfl

theorem task?_displace_head (s : Schedule) (running head : TaskId) (t u : Task) :
    (s.displace running t head u).task? head = some u.grant :=
  (task?_displace s running head head t u).trans (if_pos rfl)

theorem Sound.displace {s : Schedule} (h : s.Sound) {running head : TaskId} {t u : Task}
    (live : s.stopped = false) (hc : s.current = some running) (ht : s.task? running = some t)
    (hrun : t.state = .running) (hne : running ≠ head) :
    (s.displace running t head u).Sound := by
  have hnot := h.not_mem_row (state_ne_of_task? ht hrun (b := .ready) (by simp))
  have hpending : t.preempt.jobPending = true → t.preempt.state = .ready := fun _ => rfl
  have hresumed : t.preempt.resumed = true → t.preempt.state = .running := by simp [Task.preempt]
  -- The slot is emptied, awarded, and only then does the demoted task join the queue.
  have hdemoted : ({ s with
      tasks := s.tasks.insert running t.preempt, current := none } : Schedule).Sound := by
    refine h.store h.order (fun x hx _ => hx) (fun p hp => absurd hp (hnot p)) ?_ ?_ ?_ hpending
      hresumed
    · simp [Task.preempt]
    · intro j hj
      rw [hc]
      simp [hj.symm]
    · intro _
      simp
  have hlast : (s.displace running t head u).task? running = some t.preempt := by
    rw [task?_displace, if_neg hne.symm, if_pos rfl]
  have hawarded : (Schedule.award { s with
      tasks := s.tasks.insert running t.preempt, current := none } head u).Sound :=
    hdemoted.award live rfl
  refine hawarded.putBack (t := t.preempt) ?_ rfl
  exact hlast

/-- The row of a schedule in which one task has lost the slot to another. -/
theorem Complete.row_displace {s : Schedule} {n : ℕ} (h : s.Complete n) (hn : n < 2 ^ 63)
    {running head : TaskId} (t u : Task) (hnot : running ∉ s.ready.ids) :
    (s.displace running t head u).ready.row =
      (s.ready.row.without head).ahead (running, t.period) := by
  have hnot' : running ∉ (s.ready.remove head).ids := by
    rw [ReadyQueue.ids_remove]
    exact fun hm => hnot (List.mem_filter.1 hm).1
  rw [← ReadyQueue.row_remove]
  exact (h.numbered.remove head).row_insertFront hn hnot' t.period

theorem Complete.displace {s : Schedule} {n : ℕ} (h : s.Complete n) (hn : n < 2 ^ 63)
    {running head : TaskId} (t u : Task) (hnot : running ∉ s.ready.ids) :
    (s.displace running t head u).Complete (n + 1) := by
  refine ⟨(h.numbered.remove head).insertFront hn running t.period, fun id v hv hready => ?_⟩
  rw [h.row_displace hn t u hnot, Row.mem_ahead, Row.mem_without]
  rw [task?_displace] at hv
  split at hv
  · cases hv
    simp at hready
  · next hhead =>
      split at hv
      · next hid =>
          cases hv
          exact Or.inl (by simp [hid, Task.preempt])
      · exact Or.inr ⟨h.ready id v hv hready, fun hid => hhead hid.symm⟩

theorem Sound.evaluate {s : Schedule} (h : s.Sound) : s.evaluate.2.Sound := by
  have hcases := h.evaluates
  generalize s.evaluate.1 = d at hcases
  generalize s.evaluate.2 = next at hcases
  cases hcases with
  | idle _ => exact h
  | keep _ _ _ _ _ => exact h
  | grant live _ current _ _ _ => exact h.award live current
  | preempt live row current task run _ headTask ready _ =>
      refine h.displace live current task run ?_
      rintro rfl
      rw [task] at headTask
      cases headTask
      rw [run] at ready
      cases ready

theorem Complete.evaluate {s : Schedule} {n : ℕ} (h : s.Complete n) (hs : s.Sound)
    (hn : n < 2 ^ 63) : s.evaluate.2.Complete (n + 1) := by
  have hcases := hs.evaluates
  generalize s.evaluate.1 = d at hcases
  generalize s.evaluate.2 = next at hcases
  cases hcases with
  | idle _ => exact h.mono (by omega)
  | keep _ _ _ _ _ => exact h.mono (by omega)
  | grant _ _ _ _ _ _ => exact (h.award _ _).mono (by omega)
  | preempt _ _ _ task run _ _ _ _ =>
      exact h.displace hn _ _ (hs.not_mem_ids (state_ne_of_task? task run (by simp)))

/-- An evaluation does not end scheduling. -/
theorem Sound.stopped_evaluate {s : Schedule} (h : s.Sound) :
    s.evaluate.2.stopped = s.stopped := by
  have hcases := h.evaluates
  generalize s.evaluate.1 = d at hcases
  generalize s.evaluate.2 = next at hcases
  cases hcases <;> rfl

/-! ### Releases and grants -/

/-- What a release can do: its task was sleeping, or nothing changes. -/
theorem release_cases (s : Schedule) (id : TaskId) :
    (∃ t, s.task? id = some t ∧ t.state = .sleeping ∧
      s.release id = (.released,
        { s with
          tasks := s.tasks.insert id t.release
          ready := s.ready.insert id t.period })) ∨
    ((s.release id).1 ≠ .released ∧ (s.release id).2 = s) := by
  cases ht : s.task? id with
  | none =>
      rw [release_unknown ht]
      exact Or.inr ⟨by simp, rfl⟩
  | some t =>
      by_cases hsleep : t.state = .sleeping
      · exact Or.inl ⟨t, rfl, hsleep, by simp [release, ht, hsleep]⟩
      · rw [release_of_not_sleeping ht hsleep]
        exact Or.inr ⟨by simp, rfl⟩

theorem stopped_release (s : Schedule) (id : TaskId) : (s.release id).2.stopped = s.stopped := by
  rcases release_cases s id with ⟨t, -, -, heq⟩ | ⟨-, heq⟩ <;> rw [heq]

theorem Sound.release {s : Schedule} (h : s.Sound) (id : TaskId) : (s.release id).2.Sound := by
  rcases release_cases s id with ⟨t, ht, hsleep, heq⟩ | ⟨-, heq⟩
  · rw [heq]
    have hnot := h.not_mem_row (state_ne_of_task? ht hsleep (b := .ready) (by simp))
    have hcur := h.current_ne (state_ne_of_task? ht hsleep (b := .running) (by simp))
    have hresumed : t.release.resumed = true → t.release.state = .running := by
      intro hr
      have := h.resumed id t ht hr
      rw [hsleep] at this
      cases this
    refine h.store (h.order.insert id t.period) ?_ ?_ ?_ (fun j _ => Iff.rfl) (fun _ => hcur)
      (fun _ => rfl) hresumed
    · intro x hx hne
      rcases ReadyQueue.mem_row_of_mem_insert hx with rfl | hx
      · exact absurd rfl hne
      · exact hx
    · intro p hp
      rcases ReadyQueue.mem_row_of_mem_insert hp with heq | hp
      · cases heq
        exact ⟨rfl, rfl⟩
      · exact absurd hp (hnot p)
    · simp [Task.release, hcur]
  · rw [heq]
    exact h

theorem Complete.release {s : Schedule} {n : ℕ} (h : s.Complete n) (hs : s.Sound)
    (hn : n + 1 < 2 ^ 63) (id : TaskId) : (s.release id).2.Complete (n + 1) := by
  rcases release_cases s id with ⟨t, ht, hsleep, heq⟩ | ⟨-, heq⟩
  · rw [heq]
    have hnot := hs.not_mem_ids (state_ne_of_task? ht hsleep (b := .ready) (by simp))
    refine h.store (h.numbered.insert hn id t.period) (fun x hx _ => ?_) (fun _ => ?_)
    · rw [h.numbered.row_insert hnot]
      exact Row.mem_behind.2 (Or.inr hx)
    · rw [h.numbered.row_insert hnot]
      exact Row.mem_behind.2 (Or.inl rfl)
  · rw [heq]
    exact h.mono (by omega)

/-- What a confirmation can do: its task holds the slot and goes on, or nothing changes. -/
theorem Sound.confirm_cases {s : Schedule} (h : s.Sound) (id : TaskId) :
    (∃ t, s.current = some id ∧ s.stopped = false ∧ s.task? id = some t ∧ t.state = .running ∧
      s.confirm id = (true, { s with tasks := s.tasks.insert id t.resume })) ∨
    (s.current ≠ some id ∧ s.confirm id = (false, s)) := by
  by_cases hc : s.current = some id
  · have hlive : s.stopped = false := by
      cases hstop : s.stopped with
      | false => rfl
      | true =>
          rw [h.emptied hstop] at hc
          cases hc
    obtain ⟨t, ht, hrun⟩ := h.holds id hc
    exact Or.inl ⟨t, hc, hlive, ht, hrun, by simp [confirm, hlive, hc, ht, hrun]⟩
  · exact Or.inr ⟨hc, by simp [confirm, hc]⟩

theorem Sound.confirm {s : Schedule} (h : s.Sound) (id : TaskId) : (s.confirm id).2.Sound := by
  rcases h.confirm_cases id with ⟨t, hc, hlive, ht, hrun, heq⟩ | ⟨-, heq⟩
  · rw [heq]
    have hnot := h.not_mem_row (state_ne_of_task? ht hrun (b := .ready) (by simp))
    refine h.store (u := t.resume) h.order (fun x hx _ => hx) (fun p hp => absurd hp (hnot p)) ?_
      (fun j _ => Iff.rfl) ?_ (h.pending id t ht) (fun _ => hrun)
    · simp [Task.resume, hrun, hc]
    · intro hstop
      rw [hlive] at hstop
      cases hstop
  · rw [heq]
    exact h

theorem Complete.confirm {s : Schedule} {n : ℕ} (h : s.Complete n) (hs : s.Sound) (id : TaskId) :
    (s.confirm id).2.Complete n := by
  rcases hs.confirm_cases id with ⟨t, -, -, ht, hrun, heq⟩ | ⟨-, heq⟩
  · rw [heq]
    refine h.store h.numbered (fun x hx _ => hx) (fun hready => ?_)
    rw [Task.resume, hrun] at hready
    cases hready
  · rw [heq]
    exact h

/-! ### Ending a job -/

/-- What ending a job can do. -/
inductive Yields (s : Schedule) (id : TaskId) (now : Instant) : YieldResult → Schedule → Prop where
  | nothing {t : Task} (task : s.task? id = some t) (idle : s.inProgress id t = false) :
      Yields s id now ⟨.notRunning t.state, t.handle, none, false⟩ s
  | sleep {t : Task} {remaining : Duration} (task : s.task? id = some t)
      (busy : s.inProgress id t = true) (early : t.timeToRelease now = some remaining) :
      Yields s id now ⟨.sleeping remaining, t.handle, some t.nextRelease, s.holdsSlot id⟩
        { s with
          tasks := s.tasks.insert id t.sleep
          ready := s.ready.remove id
          current := s.slotWithout id }
  | requeue {t : Task} (task : s.task? id = some t) (busy : s.inProgress id t = true)
      (late : t.timeToRelease now = none) :
      Yields s id now ⟨.requeued, t.handle, none, s.holdsSlot id⟩
        { s with
          tasks := s.tasks.insert id t.requeue
          ready := (s.ready.remove id).insert id t.period
          current := s.slotWithout id }

theorem yields_of_endJob {s next : Schedule} {id : TaskId} {now : Instant} {y : YieldResult}
    (h : s.endJob id now = .ok (y, next)) : s.Yields id now y next := by
  cases ht : s.task? id with
  | none => simp [endJob, ht] at h
  | some t =>
      cases hbusy : s.inProgress id t with
      | false =>
          rw [endJob_of_not_inProgress ht hbusy] at h
          cases h
          exact .nothing ht hbusy
      | true =>
          cases htime : t.timeToRelease now with
          | some remaining =>
              simp only [endJob, ht, hbusy, htime, if_true] at h
              cases h
              exact .sleep ht hbusy htime
          | none =>
              simp only [endJob, ht, hbusy, htime, if_true] at h
              cases h
              exact .requeue ht hbusy htime

/-- A task with a record can end its job, whatever its state. -/
theorem exists_endJob {s : Schedule} {id : TaskId} {t : Task} (ht : s.task? id = some t)
    (now : Instant) : ∃ y next, s.endJob id now = .ok (y, next) := by
  simp only [endJob, ht]
  split
  · cases t.timeToRelease now with
    | some remaining => exact ⟨_, _, rfl⟩
    | none => exact ⟨_, _, rfl⟩
  · exact ⟨_, _, rfl⟩

theorem slotWithout_eq_some_iff {s : Schedule} {id j : TaskId} :
    s.slotWithout id = some j ↔ s.current = some j ∧ j ≠ id := by
  unfold slotWithout holdsSlot
  by_cases hc : s.current = some id
  · rw [decide_eq_true hc, if_pos rfl, hc]
    constructor
    · intro h
      cases h
    · rintro ⟨h, hne⟩
      exact absurd (Option.some.inj h).symm hne
  · rw [decide_eq_false hc]
    simp only [Bool.false_eq_true, if_false]
    refine ⟨fun h => ⟨h, ?_⟩, And.left⟩
    rintro rfl
    exact hc h

/-- A job in progress has been dispatched. -/
theorem Sound.jobPending_of_inProgress {s : Schedule} (h : s.Sound) {id : TaskId} {t : Task}
    (ht : s.task? id = some t) (hbusy : s.inProgress id t = true) : t.jobPending = false := by
  cases hp : t.jobPending with
  | false => rfl
  | true =>
      have hready := h.pending id t ht hp
      simp [inProgress, hready, hp] at hbusy

theorem Sound.yields {s next : Schedule} (h : s.Sound) {id : TaskId} {now : Instant}
    {y : YieldResult} (hy : s.Yields id now y next) : next.Sound := by
  have hslot : s.slotWithout id ≠ some id := fun hc => (slotWithout_eq_some_iff.1 hc).2 rfl
  have hothers : ∀ j, j ≠ id → (s.slotWithout id = some j ↔ s.current = some j) :=
    fun j hj => slotWithout_eq_some_iff.trans (and_iff_left hj)
  cases hy with
  | nothing _ _ => exact h
  | @sleep t remaining task busy _ =>
      have hpending := h.jobPending_of_inProgress task busy
      refine h.store (u := t.sleep) (h.order.remove id) ?_ ?_ (by simp [Task.sleep, hslot]) hothers
        (fun _ => hslot) (by simp [Task.sleep, hpending]) (by simp [Task.sleep])
      · intro x hx _
        rw [ReadyQueue.row_remove] at hx
        exact (Row.mem_without.1 hx).1
      · intro p hp
        rw [ReadyQueue.row_remove] at hp
        exact absurd rfl (Row.mem_without.1 hp).2
  | @requeue t task _ _ =>
      refine h.store (u := t.requeue) ((h.order.remove id).insert id t.period) ?_ ?_
        (by simp [Task.requeue, hslot]) hothers (fun _ => hslot) (fun _ => rfl)
        (by simp [Task.requeue])
      · intro x hx hne
        rcases ReadyQueue.mem_row_of_mem_insert hx with rfl | hx
        · exact absurd rfl hne
        · rw [ReadyQueue.row_remove] at hx
          exact (Row.mem_without.1 hx).1
      · intro p hp
        rcases ReadyQueue.mem_row_of_mem_insert hp with heq | hp
        · cases heq
          exact ⟨rfl, rfl⟩
        · rw [ReadyQueue.row_remove] at hp
          exact absurd rfl (Row.mem_without.1 hp).2

theorem Complete.yields {s next : Schedule} {n : ℕ} (h : s.Complete n) (hn : n + 1 < 2 ^ 63)
    {id : TaskId} {now : Instant} {y : YieldResult} (hy : s.Yields id now y next) :
    next.Complete (n + 1) := by
  have hothers : ∀ x ∈ s.ready.row, x.1 ≠ id → x ∈ (s.ready.remove id).row := by
    intro x hx hne
    rw [ReadyQueue.row_remove]
    exact Row.mem_without.2 ⟨hx, hne⟩
  cases hy with
  | nothing _ _ => exact h.mono (by omega)
  | sleep _ _ _ =>
      exact (h.store (h.numbered.remove id) hothers (by simp [Task.sleep])).mono (by omega)
  | requeue _ _ _ =>
      have hnot : id ∉ (s.ready.remove id).ids := by simp [ReadyQueue.ids_remove]
      have hnum := h.numbered.remove id
      refine h.store (hnum.insert hn id _) (fun x hx hne => ?_) (fun _ => ?_)
      · rw [hnum.row_insert hnot]
        exact Row.mem_behind.2 (Or.inr (hothers x hx hne))
      · rw [hnum.row_insert hnot]
        exact Row.mem_behind.2 (Or.inl rfl)

/-! ### Coming and leaving -/

theorem task?_put (s : Schedule) (t : Task) (id : TaskId) :
    (s.put t).task? id = if t.id = id then some t else s.task? id :=
  Table.get?_insert s.tasks t.id id t

/-- A new task that sleeps keeps a schedule sound. -/
theorem Sound.put {s : Schedule} (h : s.Sound) {t : Task} (hnew : s.task? t.id = none)
    (hsleep : t.state = .sleeping) (hpending : t.jobPending = false)
    (hresumed : t.resumed = false) : (s.put t).Sound := by
  have hnone : ∀ a, ∀ v, s.task? t.id = some v → v.state ≠ a := by
    intro a v hv
    rw [hnew] at hv
    cases hv
  have hcur := h.current_ne (hnone .running)
  refine h.store (u := t) h.order (fun x hx _ => hx)
    (fun p hp => absurd hp (h.not_mem_row (hnone .ready) p)) ?_ (fun j _ => Iff.rfl)
    (fun _ => hcur) (by simp [hpending]) (by simp [hresumed])
  simp [hsleep, hcur]

theorem Complete.put {s : Schedule} {n : ℕ} (h : s.Complete n) {t : Task}
    (hsleep : t.state = .sleeping) : (s.put t).Complete n :=
  h.store h.numbered (fun x hx _ => hx) (by simp [hsleep])

theorem task?_withdraw (s : Schedule) (id j : TaskId) :
    (s.withdraw id).2.task? j = if id = j then none else s.task? j :=
  Table.get?_erase s.tasks id j

/-- Withdrawing a task that was new gives back the schedule. -/
theorem withdraw_put {s : Schedule} {t : Task} (hnew : s.task? t.id = none)
    (hqueue : t.id ∉ s.ready.ids) (hslot : s.current ≠ some t.id) :
    ((s.put t).withdraw t.id).2 = s := by
  have hcurrent : (s.put t).slotWithout t.id = s.current := if_neg (by
    simp [holdsSlot, Schedule.put, hslot])
  have htasks : (s.tasks.insert t.id t).erase t.id = s.tasks := Table.erase_insert hnew t
  have hready := ReadyQueue.remove_of_not_mem hqueue
  simp only [Schedule.withdraw, hcurrent]
  simp only [Schedule.put, htasks, hready]

theorem Sound.withdraw {s : Schedule} (h : s.Sound) (id : TaskId) : (s.withdraw id).2.Sound := by
  -- Whoever is left has the record that he had before.
  have hget : ∀ j t, (s.withdraw id).2.task? j = some t → j ≠ id ∧ s.task? j = some t := by
    intro j t ht
    rw [task?_withdraw] at ht
    split at ht
    · cases ht
    · next hj => exact ⟨fun hj' => hj hj'.symm, ht⟩
  have hkept : ∀ j, j ≠ id → (s.withdraw id).2.task? j = s.task? j := by
    intro j hj
    rw [task?_withdraw, if_neg fun hj' => hj hj'.symm]
  constructor
  · exact h.order.remove id
  · intro x hx
    have hx' : x ∈ s.ready.row.without id := by
      rw [← ReadyQueue.row_remove]
      exact hx
    obtain ⟨hrow, hne⟩ := Row.mem_without.1 hx'
    rw [hkept _ hne]
    exact h.queued x hrow
  · intro j hj
    obtain ⟨hc, hne⟩ := slotWithout_eq_some_iff.1 hj
    rw [hkept _ hne]
    exact h.holds j hc
  · intro hlive j t ht hrun
    obtain ⟨hne, ht⟩ := hget j t ht
    exact slotWithout_eq_some_iff.2 ⟨h.held hlive j t ht hrun, hne⟩
  · intro i j t u ht hu
    exact h.alone i j t u (hget i t ht).2 (hget j u hu).2
  · intro hstop
    cases hc : s.slotWithout id with
    | none => exact hc
    | some j =>
        have hcur := (slotWithout_eq_some_iff.1 hc).1
        rw [h.emptied hstop] at hcur
        cases hcur
  · intro j t ht
    exact h.pending j t (hget j t ht).2
  · intro j t ht
    exact h.resumed j t (hget j t ht).2

theorem Complete.withdraw {s : Schedule} {n : ℕ} (h : s.Complete n) (id : TaskId) :
    (s.withdraw id).2.Complete n := by
  refine ⟨h.numbered.remove id, fun j t ht hready => ?_⟩
  rw [task?_withdraw] at ht
  split at ht
  · cases ht
  · next hj =>
      have hrow : (s.withdraw id).2.ready.row = s.ready.row.without id :=
        ReadyQueue.row_remove s.ready id
      rw [hrow, Row.mem_without]
      exact ⟨h.ready j t ht hready, fun hj' => hj hj'.symm⟩

theorem Sound.stop {s : Schedule} (h : s.Sound) : s.stop.2.Sound where
  order := h.order
  queued := h.queued
  holds := by simp [Schedule.stop]
  held := by simp [Schedule.stop]
  alone := h.alone
  emptied := by simp [Schedule.stop]
  pending := h.pending
  resumed := h.resumed

theorem Complete.stop {s : Schedule} {n : ℕ} (h : s.Complete n) : s.stop.2.Complete n :=
  ⟨h.numbered, h.ready⟩

end Schedule

end RateMonotonic
