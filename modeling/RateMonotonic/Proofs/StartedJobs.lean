/-
**Started jobs come first.**

A job that has been dispatched is *started* until its task yields, also while it waits because
another took the slot from it.  Started jobs nest: each lost the slot to one of a strictly shorter
period, so the slot's holder undercuts all that wait, and no two have the same period.  A job that
lost the slot went to the front of its period and nobody has come to stand there since: whoever
joined ahead of its period had a shorter one, everybody else joined behind.  So among the jobs of
one period the started one is the next to run.

Main definitions:
* `Schedule.Preempted`, `Schedule.Started` — a started job, waiting or not;
* `Schedule.Nested` — the invariant, on holder and queue alone;
* `Schedule.StartedFirst` — what follows from it for any two jobs.

Main results:
* `Schedule.Nested.evaluate`, `Schedule.Nested.moves` — **every transition keeps started jobs
  nested**;
* `Schedule.Nested.startedFirst` — no job is dispatched while one that has been started, of the same
  period or a shorter one, waits;
* `Scheduler.startedFirst_after` — so it is in every state of a run.
-/

import RateMonotonic.Proofs.Runs
import RateMonotonic.Proofs.ShortestPeriod
import RateMonotonic.Proofs.SlotHolder

set_option relaxedAutoImplicit false
set_option autoImplicit false

namespace RateMonotonic

/-! ### Leading a period -/

namespace Row

variable {x y : TaskId × Duration} {l : Row}

/-- Whoever stands in front of a leader has a shorter period. -/
theorem Leads.head_lt (h : Leads x (y :: l)) (hne : y ≠ x) : y.2 < x.2 :=
  ((leads_cons_iff.1 h).resolve_left hne).1

/-- Nobody in front of a leader has a longer period. -/
theorem Leads.head_le (h : Leads x (y :: l)) : y.2 ≤ x.2 := by
  rcases leads_cons_iff.1 h with rfl | ⟨hlt, -⟩
  · exact Nat.le_refl _
  · exact Nat.le_of_lt hlt

/-- Only one task leads a period. -/
theorem Leads.unique (hx : Leads x l) (hy : Leads y l) (heq : x.2 = y.2) : x = y := by
  induction l with
  | nil => exact absurd hx not_leads_nil
  | cons z l ih =>
      rcases leads_cons_iff.1 hx with rfl | ⟨hzx, hx⟩
      · by_contra hne
        exact absurd (heq ▸ hy.head_lt hne) (Nat.lt_irrefl _)
      · rcases leads_cons_iff.1 hy with rfl | ⟨-, hy⟩
        · exact absurd (heq ▸ hzx) (Nat.lt_irrefl _)
        · exact ih hx hy

/-- A leader stays one if whoever joins has a shorter period or passes him by. -/
theorem Leads.orderedInsert {r : TaskId × Duration → TaskId × Duration → Prop} [DecidableRel r]
    (h : Leads x l) (hr : ∀ z, r y z → z.2 ≤ x.2 → y.2 < x.2) :
    Leads x (l.orderedInsert r y) := by
  induction l with
  | nil => exact absurd h not_leads_nil
  | cons z l ih =>
      rw [List.orderedInsert_cons]
      split
      · next hyz => exact leads_cons_iff.2 (Or.inr ⟨hr z hyz h.head_le, h⟩)
      · exact leads_cons_iff.2 ((leads_cons_iff.1 h).imp_right fun ⟨hlt, hl⟩ => ⟨hlt, ih hl⟩)

theorem Leads.behind (h : Leads x l) (y : TaskId × Duration) : Leads x (Row.behind y l) :=
  h.orderedInsert fun _ hyz hzx => Nat.lt_of_lt_of_le hyz hzx

theorem Leads.ahead (h : Leads x l) (hlt : y.2 < x.2) : Leads x (Row.ahead y l) :=
  h.orderedInsert fun _ _ _ => hlt

theorem Leads.without (h : Leads x l) {id : TaskId} (hne : x.1 ≠ id) : Leads x (l.without id) := by
  obtain ⟨before, after, rfl, hbefore⟩ := h
  refine ⟨Row.without id before, Row.without id after, ?_, fun y hy => ?_⟩
  · simp [Row.without, hne]
  · exact hbefore y (mem_without.1 hy).1

end Row

namespace Schedule

variable {s next : Schedule} {n : ℕ}

/-! ### Started jobs -/

/-- A started job of a task waits: the task lost the slot. -/
def Preempted (s : Schedule) (id : TaskId) (t : Task) : Prop :=
  s.task? id = some t ∧ t.state = .ready ∧ t.jobPending = false

/-- A task has a started job. -/
def Started (s : Schedule) (id : TaskId) (t : Task) : Prop :=
  s.task? id = some t ∧ (s.current = some id ∨ t.state = .ready ∧ t.jobPending = false)

theorem Started.holds_or_preempted {id : TaskId} {t : Task} (h : s.Started id t) :
    s.current = some id ∨ s.Preempted id t :=
  h.2.imp_right fun hready => ⟨h.1, hready⟩

/-- The slot's holder has a shorter period than every started job that waits, and these lead their
periods. -/
structure Nested (s : Schedule) : Prop where
  inner : ∀ i t, s.current = some i → s.task? i = some t →
    ∀ j u, s.Preempted j u → t.period < u.period
  leads : ∀ j u, s.Preempted j u → Row.Leads (j, u.period) s.ready.row

/-- Started jobs come before all others of their periods. -/
structure StartedFirst (s : Schedule) : Prop where
  /-- No two started jobs have the same period. -/
  distinct : ∀ i j t u, s.Started i t → s.Started j u → t.period = u.period → i = j
  /-- The slot's holder has a shorter period than every started job that waits. -/
  inner : ∀ i t, s.current = some i → s.task? i = some t →
    ∀ j u, s.Preempted j u → t.period < u.period
  /-- A started job that waits is queued ahead of everybody else of its period. -/
  leads : ∀ j u, s.Preempted j u → Row.Leads (j, u.period) s.ready.row
  /-- A job that an evaluation starts has a shorter period than every job started before. -/
  fresh : ∀ i t, s.evaluate.2.current = some i → s.task? i = some t → t.jobPending = true →
    ∀ j u, s.Started j u → t.period < u.period

theorem nested_empty : empty.Nested where
  inner := by simp [empty]
  leads := by simp [Preempted, empty, task?]

/-! ### What transitions do to started jobs -/

/-- Storing a record without a started job that waits starts no other. -/
theorem Preempted.of_store {id j : TaskId} {v u : Task} {q : ReadyQueue} {c : Option TaskId}
    (hv : v.state = .ready → v.jobPending = true)
    (h : Preempted { s with tasks := s.tasks.insert id v, ready := q, current := c } j u) :
    id ≠ j ∧ s.Preempted j u := by
  obtain ⟨ht, hready, hstarted⟩ := h
  rw [task?_insert] at ht
  split at ht
  · cases ht
    rw [hv hready] at hstarted
    cases hstarted
  · next hne => exact ⟨hne, ht, hready, hstarted⟩

/-- Whatever leaves the slot to its holder or to nobody keeps started jobs nested, if it keeps those
that wait at the front of their periods. -/
theorem Nested.of_holderFrom (h : s.Nested) (hfrom : s.HolderFrom next)
    (hwait : ∀ j u, next.Preempted j u → s.Preempted j u ∧
      (Row.Leads (j, u.period) s.ready.row → Row.Leads (j, u.period) next.ready.row)) :
    next.Nested := by
  refine ⟨fun i t hc ht j u hu => ?_, fun j u hu => ?_⟩
  · obtain ⟨hc', t', ht', hentry⟩ := hfrom i t hc ht
    have hperiod : t'.period = t.period := congrArg (fun e => e.info.period) hentry
    rw [← hperiod]
    exact h.inner i t' hc' ht' j u (hwait j u hu).1
  · obtain ⟨hbefore, hleads⟩ := hwait j u hu
    exact hleads (h.leads j u hbefore)

theorem Nested.put (h : s.Nested) (hs : s.Sound) {e : RegistryEntry} (first : Instant)
    (hnew : s.task? e.info.id = none) : (s.put (e.asleep first)).Nested := by
  refine h.of_holderFrom (hs.holderKept_put (t := e.asleep first) hnew).holderFrom
    fun j u hu => ⟨?_, id⟩
  have hsleep : (e.asleep first).state = .ready → (e.asleep first).jobPending = true := by
    simp [RegistryEntry.asleep, Task.sleepingUntil]
  exact (Preempted.of_store hsleep hu).2

theorem Nested.withdraw (h : s.Nested) (id : TaskId) : (s.withdraw id).2.Nested := by
  refine h.of_holderFrom (holderKept_withdraw s id).holderFrom fun j u ⟨hu, hready, hstarted⟩ => ?_
  rw [task?_withdraw] at hu
  split at hu
  · cases hu
  · next hne =>
      refine ⟨⟨hu, hready, hstarted⟩, fun hleads => ?_⟩
      have hrow : (s.withdraw id).2.ready.row = s.ready.row.without id :=
        ReadyQueue.row_remove s.ready id
      rw [hrow]
      exact hleads.without (Ne.symm hne)

theorem Nested.release (h : s.Nested) (hs : s.Sound) (hc : s.Complete n) (id : TaskId) :
    (s.release id).2.Nested := by
  refine h.of_holderFrom (hs.holderKept_release id).holderFrom fun j u hu => ?_
  rcases release_cases s id with ⟨t, ht, hsleep, heq⟩ | ⟨-, heq⟩
  · rw [heq] at hu ⊢
    refine ⟨(Preempted.of_store (fun _ => rfl) hu).2, fun hleads => ?_⟩
    have hnot := hs.not_mem_ids (state_ne_of_task? ht hsleep (b := .ready) (by simp))
    rw [hc.numbered.row_insert hnot]
    exact hleads.behind (id, t.period)
  · rw [heq] at hu ⊢
    exact ⟨hu, fun hleads => hleads⟩

theorem Nested.yields (h : s.Nested) (hc : s.Complete n) {id : TaskId} {now : Instant}
    {y : YieldResult} (hy : s.Yields id now y next) : next.Nested := by
  refine h.of_holderFrom hy.holderKept.holderFrom fun j u hu => ?_
  cases hy with
  | nothing _ _ => exact ⟨hu, fun hleads => hleads⟩
  | sleep _ _ _ =>
      obtain ⟨hne, hbefore⟩ := Preempted.of_store (by simp [Task.sleep]) hu
      refine ⟨hbefore, fun hleads => ?_⟩
      rw [ReadyQueue.row_remove]
      exact hleads.without (Ne.symm hne)
  | requeue _ _ _ =>
      obtain ⟨hne, hbefore⟩ := Preempted.of_store (fun _ => rfl) hu
      refine ⟨hbefore, fun hleads => ?_⟩
      have hnot : id ∉ (s.ready.remove id).ids := by simp [ReadyQueue.ids_remove]
      rw [(hc.numbered.remove id).row_insert hnot, ReadyQueue.row_remove]
      exact (hleads.without (Ne.symm hne)).behind _

theorem Nested.confirm (h : s.Nested) (hs : s.Sound) (id : TaskId) : (s.confirm id).2.Nested := by
  refine h.of_holderFrom (hs.holderFrom_confirm id) fun j u hu => ?_
  rcases hs.confirm_cases id with ⟨t, -, -, -, hrun, heq⟩ | ⟨-, heq⟩
  · rw [heq] at hu ⊢
    have hresume : t.resume.state = .ready → t.resume.jobPending = true := by
      simp [Task.resume, hrun]
    exact ⟨(Preempted.of_store hresume hu).2, fun hleads => hleads⟩
  · rw [heq] at hu ⊢
    exact ⟨hu, fun hleads => hleads⟩

theorem Nested.stop (h : s.Nested) : s.stop.2.Nested :=
  h.of_holderFrom (holderKept_of_free rfl).holderFrom fun _ _ hu => ⟨hu, fun hleads => hleads⟩

/-- The head of the queue has a shorter period than every other started job that waits. -/
theorem Nested.head_lt (h : s.Nested) {head j : TaskId} {p : Duration} {rest : Row} {u : Task}
    (hrow : s.ready.row = (head, p) :: rest) (hu : s.Preempted j u) (hne : head ≠ j) :
    p < u.period := by
  have hleads := h.leads j u hu
  rw [hrow] at hleads
  refine hleads.head_lt fun heq => ?_
  exact hne (congrArg Prod.fst heq)

/-- **An evaluation keeps started jobs nested.** -/
theorem Nested.evaluate (h : s.Nested) (hs : s.Sound) (hc : s.Complete n) (hn : n < 2 ^ 63) :
    s.evaluate.2.Nested := by
  have hcases := hs.evaluates
  generalize s.evaluate.1 = d at hcases
  generalize s.evaluate.2 = next at hcases
  cases hcases with
  | idle _ => exact h
  | keep _ _ _ _ _ => exact h
  | @grant head v p _ _ row _ _ _ period =>
      have hwait : ∀ j u, (s.award head v).Preempted j u → head ≠ j ∧ s.Preempted j u :=
        fun j u hu => Preempted.of_store (by simp) hu
      refine ⟨fun i t hi ht j u hu => ?_, fun j u hu => ?_⟩
      · obtain ⟨hne, hu⟩ := hwait j u hu
        cases hi
        rw [task?_award_self] at ht
        cases ht
        rw [Task.period_grant, period]
        exact h.head_lt row hu hne
      · obtain ⟨hne, hu⟩ := hwait j u hu
        rw [row_award]
        exact (h.leads j u hu).without (Ne.symm hne)
  | @preempt running head t v p _ _ row current task run lt _ _ period =>
      -- The old holder joins those that wait, with a shorter period than any of them.
      have hwait : ∀ j u, (s.displace running t head v).Preempted j u →
          running = j ∧ u = t.preempt ∨ head ≠ j ∧ s.Preempted j u := by
        rintro j u ⟨hu, hready, hstarted⟩
        rw [task?_displace] at hu
        split at hu
        · cases hu
          simp at hready
        · next hne =>
            split at hu
            · next heq =>
                cases hu
                exact Or.inl ⟨heq, rfl⟩
            · exact Or.inr ⟨hne, hu, hready, hstarted⟩
      refine ⟨fun i w hi hw j u hu => ?_, fun j u hu => ?_⟩
      · cases hi
        rw [task?_displace_head] at hw
        cases hw
        rw [Task.period_grant, period]
        rcases hwait j u hu with ⟨-, rfl⟩ | ⟨hne, hu⟩
        · exact lt
        · exact h.head_lt row hu hne
      · rw [hc.row_displace hn t v (hs.not_mem_ids (state_ne_of_task? task run (by simp)))]
        rcases hwait j u hu with ⟨rfl, rfl⟩ | ⟨hne, hu⟩
        · exact Row.leads_ahead_self _ _
        · exact ((h.leads j u hu).without (Ne.symm hne)).ahead (h.inner _ _ current task j u hu)

/-- **Every transition keeps started jobs nested.** -/
theorem Nested.moves (h : s.Nested) (hs : s.Sound) (hc : s.Complete n) (hn : n < 2 ^ 63)
    (hmove : s.Moves next) : next.Nested := by
  cases hmove with
  | stay => exact h
  | put first new => exact h.put hs first new
  | withdraw id => exact h.withdraw id
  | yields ends => exact h.yields hc ends
  | release id => exact h.release hs hc id
  | evaluate => exact h.evaluate hs hc hn
  | confirm id => exact h.confirm hs id
  | stop => exact h.stop

/-! ### Any two jobs -/

theorem Nested.distinct (h : s.Nested) {i j : TaskId} {t u : Task} (hi : s.Started i t)
    (hj : s.Started j u) (heq : t.period = u.period) : i = j := by
  rcases hi.holds_or_preempted with hci | hpi <;> rcases hj.holds_or_preempted with hcj | hpj
  · rw [hci] at hcj
    exact Option.some.inj hcj
  · have hlt := h.inner i t hci hi.1 j u hpj
    rw [heq] at hlt
    exact absurd hlt (Nat.lt_irrefl _)
  · have hlt := h.inner j u hcj hj.1 i t hpi
    rw [heq] at hlt
    exact absurd hlt (Nat.lt_irrefl _)
  · exact congrArg Prod.fst ((h.leads i t hpi).unique (h.leads j u hpj) heq)

/-- A job that an evaluation starts has a shorter period than every job started before. -/
theorem Nested.fresh (h : s.Nested) (hs : s.Sound) {i : TaskId} {t : Task}
    (hi : s.evaluate.2.current = some i) (ht : s.task? i = some t) (hnew : t.jobPending = true)
    {j : TaskId} {u : Task} (hj : s.Started j u) : t.period < u.period := by
  have hold : s.current ≠ some i :=
    hs.current_ne (state_ne_of_task? ht (hs.pending i t ht hnew) (by simp))
  have hne : i ≠ j := by
    rintro rfl
    obtain ⟨hu, hstarted⟩ := hj
    rw [ht] at hu
    cases hu
    rcases hstarted with hc | ⟨-, hstarted⟩
    · exact hold hc
    · rw [hnew] at hstarted
      cases hstarted
  have hcases := hs.evaluates
  generalize s.evaluate.1 = d at hcases
  generalize s.evaluate.2 = next at hcases hi
  cases hcases with
  | idle _ => exact absurd hi hold
  | keep _ _ _ _ _ => exact absurd hi hold
  | grant _ row current task _ period =>
      cases hi
      rw [ht] at task
      cases task
      rcases hj.holds_or_preempted with hc | hp
      · rw [current] at hc
        cases hc
      · exact period ▸ h.head_lt row hp hne
  | preempt _ row current task _ lt headTask _ period =>
      cases hi
      rw [ht] at headTask
      cases headTask
      rcases hj.holds_or_preempted with hc | hp
      · rw [current] at hc
        cases hc
        rw [hj.1] at task
        cases task
        exact period ▸ lt
      · exact period ▸ h.head_lt row hp hne

theorem Nested.startedFirst (h : s.Nested) (hs : s.Sound) : s.StartedFirst where
  distinct := fun _ _ _ _ hi hj heq => h.distinct hi hj heq
  inner := h.inner
  leads := h.leads
  fresh := fun _ _ hi ht hnew _ _ hj => h.fresh hs hi ht hnew hj

end Schedule

/-! ### Runs -/

namespace Scheduler

/-- A run keeps started jobs nested while numbers last. -/
theorem Kept.nested_after {s : Scheduler} {n : ℕ} (h : s.Kept n) (hnested : s.schedule.Nested)
    (run : List Transition) (hn : n + run.length < 2 ^ 63) : (s.after run).schedule.Nested := by
  induction run generalizing s n with
  | nil => exact hnested
  | cons m run ih =>
      simp only [List.length_cons] at hn
      refine ih (h.take (by omega) m) ?_ (by omega)
      exact hnested.moves h.sound h.complete (by omega) (h.consistent.moves m)

/-- **In every state of a run, started jobs come first.** -/
theorem startedFirst_after {c : Config} {s : Scheduler} (hs : Scheduler.new c = .ok s)
    (run : List Transition) (hrun : run.length < 2 ^ 63) :
    (s.after run).schedule.StartedFirst := by
  obtain ⟨-, rfl⟩ := new_eq_ok hs
  have hkept := (kept_ofConfig c).after run (by omega)
  have hnested := (kept_ofConfig c).nested_after Schedule.nested_empty run (by omega)
  exact hnested.startedFirst hkept.sound

/-- Two tasks lose the slot one after the other, the first while another of its period is queued. -/
def nesting : List Transition :=
  let resolver : Resolver := fun id => some ⟨id.number⟩
  let register (number : UInt32) (millis : UInt64) : Transition :=
    .register resolver Instant.start ⟨⟨number⟩, Duration.ofMillis millis, Duration.ofMillis 1⟩
  [register 1 100, register 2 50, register 3 25, register 4 100, .release ⟨1⟩, .evaluate,
    .confirm ⟨1⟩, .release ⟨4⟩, .release ⟨2⟩, .evaluate, .confirm ⟨2⟩, .release ⟨3⟩, .evaluate]

/-- Those who lost the slot wait in the order of their periods, the first of them ahead of the other
task of its period. -/
theorem startedFirst_after_nesting :
    let s := ((ofConfig Config.default).after nesting).schedule
    nesting.length < 2 ^ 63 ∧ s.current = some ⟨3⟩ ∧ s.ready.ids = [⟨2⟩, ⟨1⟩, ⟨4⟩] ∧
      (s.task? ⟨1⟩).map Task.jobPending = some false ∧
      (s.task? ⟨4⟩).map Task.jobPending = some true ∧ s.StartedFirst :=
  ⟨by decide, by decide, by decide, by decide, by decide,
    startedFirst_after (c := Config.default) rfl nesting (by decide)⟩

end Scheduler

end RateMonotonic
