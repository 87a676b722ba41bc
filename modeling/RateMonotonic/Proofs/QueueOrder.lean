/-
**The order of the ready queue.**

The queue keeps its entries sorted by period and number, whatever the counters do.  As long as no
counter has gone round, the numbers say more than that: an arrival stands behind every task of at
most its period, and a job put back stands ahead of every task of at least its period.  Both are
insertions into the *row* of the queue, the tasks with their periods, and the row is all that the
rest of the theory looks at.

Main definitions:
* `Row`, `ReadyQueue.row` — the queued tasks with their periods, first to run first;
* `Row.behind`, `Row.ahead`, `Row.without` — a task joins a row at either end of its period, or
  leaves it;
* `ReadyQueue.InOrder` — sorted, no task twice;
* `ReadyQueue.Numbered` — every number has been given out, in fewer steps than the counters hold.

Main results:
* `ReadyQueue.InOrder.insert`, `ReadyQueue.InOrder.insertFront`, `ReadyQueue.InOrder.remove` — the
  order survives every operation;
* `ReadyQueue.Numbered.row_insert`, `ReadyQueue.Numbered.row_insertFront` — **while numbers last,
  enqueueing is insertion into the row**.
-/

import Mathlib.Data.List.Sort
import RateMonotonic.ReadyQueue

set_option relaxedAutoImplicit false
set_option autoImplicit false

namespace RateMonotonic

/-! ### Rows -/

/-- Tasks with their periods, first to run first. -/
abbrev Row := List (TaskId × Duration)

namespace Row

/-- A task joins behind all of at most its period. -/
def behind (x : TaskId × Duration) (l : Row) : Row := l.orderedInsert (fun a b => a.2 < b.2) x

/-- A task joins ahead of all of at least its period. -/
def ahead (x : TaskId × Duration) (l : Row) : Row := l.orderedInsert (fun a b => a.2 ≤ b.2) x

/-- A task leaves. -/
def without (id : TaskId) (l : Row) : Row := l.filter (·.1 ≠ id)

/-- The periods do not decrease. -/
def Ascending (l : Row) : Prop := l.Pairwise fun a b => a.2 ≤ b.2

@[simp] theorem mem_behind {x y : TaskId × Duration} {l : Row} :
    y ∈ behind x l ↔ y = x ∨ y ∈ l := List.mem_orderedInsert _

@[simp] theorem mem_ahead {x y : TaskId × Duration} {l : Row} :
    y ∈ ahead x l ↔ y = x ∨ y ∈ l := List.mem_orderedInsert _

@[simp] theorem mem_without {id : TaskId} {y : TaskId × Duration} {l : Row} :
    y ∈ without id l ↔ y ∈ l ∧ y.1 ≠ id := by
  simp [without]

/-- A task that nobody undercuts joins at the very front. -/
theorem ahead_eq_cons {x : TaskId × Duration} {l : Row} (h : ∀ y ∈ l, x.2 ≤ y.2) :
    ahead x l = x :: l := by
  cases l with
  | nil => rfl
  | cons y l => exact List.orderedInsert_cons_of_le (r := fun a b => a.2 ≤ b.2) l (h y (by simp))

/-- A task behind a shorter period joins behind it. -/
theorem ahead_cons_of_lt {x y : TaskId × Duration} (l : Row) (h : y.2 < x.2) :
    ahead x (y :: l) = y :: ahead x l := by
  refine List.orderedInsert_of_not_le (r := fun a b => a.2 ≤ b.2) l ?_
  simp only [Duration.lt_def, Duration.le_def] at h ⊢
  omega

/-- **The two ends of a period do not interfere**: it does not matter which task joins first. -/
theorem ahead_behind (x y : TaskId × Duration) (l : Row) :
    ahead x (behind y l) = behind y (ahead x l) := by
  induction l with
  | nil =>
      simp only [ahead, behind, List.orderedInsert_nil, List.orderedInsert_cons,
        Duration.lt_def, Duration.le_def]
      by_cases h : x.2.nanos ≤ y.2.nanos
      · rw [if_pos h, if_neg (by omega)]
      · rw [if_neg h, if_pos (by omega)]
  | cons z l ih =>
      simp only [ahead, behind, List.orderedInsert_cons, Duration.lt_def, Duration.le_def] at ih ⊢
      -- Where the two stand among themselves matters only if both stop in front of `z`.
      by_cases hy : y.2.nanos < z.2.nanos <;> by_cases hx : x.2.nanos ≤ z.2.nanos
      · by_cases h : x.2.nanos ≤ y.2.nanos
        · simp [hy, hx, h]
        · simp [hy, hx, h]
      · have h : ¬ x.2.nanos ≤ y.2.nanos := by omega
        simp [hy, hx, h]
      · have h : ¬ y.2.nanos < x.2.nanos := by omega
        simp [hy, hx, h]
      · simp [hy, hx, ih]

/-- A task that joins and leaves again. -/
theorem without_ahead_self (id : TaskId) (p : Duration) (l : Row) :
    without id (ahead (id, p) l) = without id l := by
  induction l with
  | nil => simp [ahead, without]
  | cons z l ih =>
      simp only [ahead, without, List.orderedInsert_cons] at ih ⊢
      split
      · simp
      · rw [List.filter_cons, List.filter_cons, ih]

/-- In an ascending row, a task joins at the same place whether another one has left or not. -/
theorem without_ahead {x : TaskId × Duration} {id : TaskId} {l : Row} (h : l.Ascending)
    (hx : x.1 ≠ id) : without id (ahead x l) = ahead x (without id l) := by
  induction l with
  | nil => simp [ahead, without, hx]
  | cons z l ih =>
      obtain ⟨hz, hl⟩ := List.pairwise_cons.1 h
      rcases Nat.lt_or_ge z.2.nanos x.2.nanos with hlt | hle
      · rw [ahead_cons_of_lt l hlt]
        by_cases hid : z.1 = id
        · simpa [without, hid] using ih hl
        · have hrest := ih hl
          simp only [without, List.filter_cons, hid, ne_eq, not_false_eq_true, decide_true,
            if_true] at hrest ⊢
          rw [ahead_cons_of_lt _ hlt, hrest]
      · have hall : ∀ y ∈ z :: l, x.2 ≤ y.2 := by
          intro y hy
          rcases List.mem_cons.1 hy with rfl | hy
          · exact hle
          · exact Nat.le_trans hle (hz y hy)
        rw [ahead_eq_cons hall, ahead_eq_cons fun y hy => hall y (mem_without.1 hy).1]
        simp [without, hx]

end Row

/-! ### Keys -/

namespace QueueEntry

theorem before_iff {e f : QueueEntry} :
    e.before f = true ↔ e.period.nanos < f.period.nanos ∨
      (e.period.nanos = f.period.nanos ∧ e.number.toInt < f.number.toInt) := by
  simp [before, Duration.lt_def, Duration.ext_iff, Int64.lt_iff_toInt_lt]

theorem sameKey_iff {e f : QueueEntry} :
    e.sameKey f = true ↔
      e.period.nanos = f.period.nanos ∧ e.number.toInt = f.number.toInt := by
  simp [sameKey, Duration.ext_iff, ← Int64.toInt_inj]

theorem before_trans {e f g : QueueEntry} (hef : e.before f = true) (hfg : f.before g = true) :
    e.before g = true := by
  rw [before_iff] at *
  omega

/-- What is neither before another entry nor of its key is behind it. -/
theorem before_of_not {e f : QueueEntry} (hb : ¬ e.before f = true) (hk : ¬ e.sameKey f = true) :
    f.before e = true := by
  rw [before_iff] at *
  rw [sameKey_iff] at hk
  omega

theorem before_of_sameKey {e f g : QueueEntry} (hk : e.sameKey f = true)
    (h : f.before g = true) : e.before g = true := by
  rw [before_iff] at *
  rw [sameKey_iff] at hk
  omega

end QueueEntry

namespace ReadyQueue

/-! ### Placing an entry -/

/-- Placing keeps a part of the entries, in their order, and adds the new one. -/
theorem exists_perm_place (e : QueueEntry) (l : List QueueEntry) :
    ∃ kept, kept.Sublist l ∧ (place e l).Perm (e :: kept) := by
  induction l with
  | nil => exact ⟨[], List.Sublist.refl _, List.Perm.refl _⟩
  | cons f l ih =>
      simp only [place]
      split
      · exact ⟨f :: l, List.Sublist.refl _, List.Perm.refl _⟩
      · split
        · exact ⟨l, List.sublist_cons_self f l, List.Perm.refl _⟩
        · obtain ⟨kept, hsub, hperm⟩ := ih
          refine ⟨f :: kept, hsub.cons_cons f, ?_⟩
          exact (hperm.cons f).trans (List.Perm.swap e f kept)

theorem mem_of_mem_place {e f : QueueEntry} {l : List QueueEntry} (h : f ∈ place e l) :
    f = e ∨ f ∈ l := by
  obtain ⟨kept, hsub, hperm⟩ := exists_perm_place e l
  rcases List.mem_cons.1 (hperm.mem_iff.1 h) with rfl | hf
  · exact Or.inl rfl
  · exact Or.inr (hsub.subset hf)

theorem pairwise_place (e : QueueEntry) {l : List QueueEntry}
    (h : l.Pairwise fun f g => f.before g = true) :
    (place e l).Pairwise fun f g => f.before g = true := by
  induction l with
  | nil => simp [place]
  | cons f l ih =>
      obtain ⟨hf, hl⟩ := List.pairwise_cons.1 h
      simp only [place]
      split
      · next heb =>
          refine List.pairwise_cons.2 ⟨fun g hg => ?_, h⟩
          rcases List.mem_cons.1 hg with rfl | hg
          · exact heb
          · exact QueueEntry.before_trans heb (hf g hg)
      · next heb =>
          split
          · next hk =>
              exact List.pairwise_cons.2
                ⟨fun g hg => QueueEntry.before_of_sameKey hk (hf g hg), hl⟩
          · next hk =>
              refine List.pairwise_cons.2 ⟨fun g hg => ?_, ih hl⟩
              rcases mem_of_mem_place hg with rfl | hg
              · exact QueueEntry.before_of_not heb hk
              · exact hf g hg

/-! ### Order -/

/-- The queued tasks with their periods, first to run first. -/
def row (q : ReadyQueue) : Row := q.entries.map fun e => (e.id, e.period)

/-- The entries are sorted by their keys, and no task is queued twice. -/
structure InOrder (q : ReadyQueue) : Prop where
  sorted : q.entries.Pairwise fun e f => e.before f = true
  once : q.ids.Nodup

theorem ids_eq_map_row (q : ReadyQueue) : q.ids = q.row.map Prod.fst := by
  simp [ids, row]

theorem head?_eq_row (q : ReadyQueue) : q.head? = q.row.head? := by
  simp [head?, row, List.head?_map]

theorem row_remove (q : ReadyQueue) (id : TaskId) : (q.remove id).row = q.row.without id := by
  simp only [row, remove, Row.without, List.filter_map]
  rfl

theorem inOrder_empty : empty.InOrder := ⟨by simp [empty], by simp [empty, ids]⟩

/-- The periods ascend along the row. -/
theorem InOrder.ascending {q : ReadyQueue} (h : q.InOrder) : q.row.Ascending := by
  refine List.pairwise_map.2 (h.sorted.imp fun hef => ?_)
  rw [QueueEntry.before_iff] at hef
  simp only [Duration.le_def]
  omega

theorem contains_eq_false_iff {q : ReadyQueue} {id : TaskId} :
    q.contains id = false ↔ id ∉ q.ids := by
  rw [← contains_iff, Bool.not_eq_true]

/-- An entry of a task that is not queued can be placed. -/
theorem InOrder.place {q : ReadyQueue} (h : q.InOrder) {e : QueueEntry}
    (he : q.contains e.id = false) (back front : Int64) :
    (⟨ReadyQueue.place e q.entries, back, front⟩ : ReadyQueue).InOrder := by
  refine ⟨pairwise_place e h.sorted, ?_⟩
  obtain ⟨kept, hsub, hperm⟩ := exists_perm_place e q.entries
  have hids := hsub.map (·.id)
  refine ((hperm.map (·.id)).nodup_iff).2 (List.nodup_cons.2 ⟨fun hm => ?_, ?_⟩)
  · exact contains_eq_false_iff.1 he (hids.subset hm)
  · exact h.once.sublist hids

theorem InOrder.insert {q : ReadyQueue} (h : q.InOrder) (id : TaskId) (p : Duration) :
    (q.insert id p).InOrder := by
  unfold ReadyQueue.insert
  split
  · exact h
  · next hc => exact h.place (by simpa using hc) _ _

theorem InOrder.insertFront {q : ReadyQueue} (h : q.InOrder) (id : TaskId) (p : Duration) :
    (q.insertFront id p).InOrder := by
  unfold ReadyQueue.insertFront
  split
  · exact h
  · next hc => exact h.place (by simpa using hc) _ _

theorem InOrder.remove {q : ReadyQueue} (h : q.InOrder) (id : TaskId) : (q.remove id).InOrder :=
  ⟨List.Pairwise.filter _ h.sorted, by rw [ids_remove]; exact h.once.filter _⟩

/-! ### Membership -/

theorem mem_row_of_mem_place {q : ReadyQueue} {e : QueueEntry} {back front : Int64}
    {x : TaskId × Duration}
    (h : x ∈ (⟨place e q.entries, back, front⟩ : ReadyQueue).row) :
    x = (e.id, e.period) ∨ x ∈ q.row := by
  obtain ⟨f, hf, rfl⟩ := List.mem_map.1 h
  rcases mem_of_mem_place hf with rfl | hf
  · exact Or.inl rfl
  · exact Or.inr (List.mem_map_of_mem hf)

theorem mem_row_of_mem_insert {q : ReadyQueue} {id : TaskId} {p : Duration}
    {x : TaskId × Duration} (h : x ∈ (q.insert id p).row) : x = (id, p) ∨ x ∈ q.row := by
  unfold ReadyQueue.insert at h
  split at h
  · exact Or.inr h
  · exact mem_row_of_mem_place h

theorem mem_row_of_mem_insertFront {q : ReadyQueue} {id : TaskId} {p : Duration}
    {x : TaskId × Duration} (h : x ∈ (q.insertFront id p).row) : x = (id, p) ∨ x ∈ q.row := by
  unfold ReadyQueue.insertFront at h
  split at h
  · exact Or.inr h
  · exact mem_row_of_mem_place h

/-! ### While numbers last -/

/-- The counters have given out at most this many numbers each, and every entry has one of them. -/
structure Numbered (n : ℕ) (q : ReadyQueue) : Prop where
  /-- Arrivals are counted upwards from zero. -/
  back_nonneg : 0 ≤ q.nextBack.toInt
  /-- There have not been more arrivals than this. -/
  back_le : q.nextBack.toInt ≤ n
  /-- Jobs put back are counted downwards from zero. -/
  front_nonpos : q.lastFront.toInt ≤ 0
  /-- Not more jobs than this have been put back. -/
  neg_le_front : -n ≤ q.lastFront.toInt
  /-- Entries have numbers that have been given out. -/
  given_out : ∀ e ∈ q.entries,
    q.lastFront.toInt ≤ e.number.toInt ∧ e.number.toInt < q.nextBack.toInt

theorem numbered_empty : empty.Numbered 0 := by
  constructor <;> simp [empty]

theorem Numbered.mono {q : ReadyQueue} {n m : ℕ} (h : q.Numbered n) (hm : n ≤ m) :
    q.Numbered m where
  back_nonneg := h.back_nonneg
  back_le := by have := h.back_le; omega
  front_nonpos := h.front_nonpos
  neg_le_front := by have := h.neg_le_front; omega
  given_out := h.given_out

/-- A counter below its limit goes up by one. -/
theorem toInt_add_one {k : Int64} {n : ℕ} (h0 : 0 ≤ k.toInt) (hk : k.toInt ≤ n)
    (hn : n + 1 < 2 ^ 63) : (k + 1).toInt = k.toInt + 1 := by
  rw [Int64.toInt_add, Int64.toInt_one]
  exact Int.bmod_eq_of_le (by omega) (by omega)

/-- A counter above its limit goes down by one. -/
theorem toInt_sub_one {k : Int64} {n : ℕ} (h0 : k.toInt ≤ 0) (hk : -n ≤ k.toInt)
    (hn : n < 2 ^ 63) : (k - 1).toInt = k.toInt - 1 := by
  rw [Int64.toInt_sub, Int64.toInt_one]
  exact Int.bmod_eq_of_le (by omega) (by omega)

/-- Where no two keys meet and the order of the keys is a relation on the row, placing an entry is
ordered insertion into the row. -/
theorem map_place {r : TaskId × Duration → TaskId × Duration → Prop} [DecidableRel r]
    {e : QueueEntry} {l : List QueueEntry} (hk : ∀ f ∈ l, ¬ e.sameKey f = true)
    (hb : ∀ f ∈ l, e.before f = true ↔ r (e.id, e.period) (f.id, f.period)) :
    (place e l).map (fun f => (f.id, f.period)) =
      (l.map fun f => (f.id, f.period)).orderedInsert r (e.id, e.period) := by
  induction l with
  | nil => rfl
  | cons f l ih =>
      have hrest := ih (fun g hg => hk g (List.mem_cons_of_mem f hg))
        fun g hg => hb g (List.mem_cons_of_mem f hg)
      simp only [place, hb f (by simp), hk f (by simp), List.map_cons, List.orderedInsert_cons]
      split
      · rfl
      · simp only [Bool.false_eq_true, if_false, List.map_cons, hrest]

/-- The number of the next arrival is new. -/
theorem Numbered.not_sameKey_back {q : ReadyQueue} {n : ℕ} (h : q.Numbered n) (id : TaskId)
    (p : Duration) : ∀ f ∈ q.entries, ¬ (⟨p, q.nextBack, id⟩ : QueueEntry).sameKey f = true := by
  intro f hf
  have := (h.given_out f hf).2
  simp only [QueueEntry.sameKey_iff]
  omega

/-- The number of the next job put back is new. -/
theorem Numbered.not_sameKey_front {q : ReadyQueue} {n : ℕ} (h : q.Numbered n) (hn : n < 2 ^ 63)
    (id : TaskId) (p : Duration) :
    ∀ f ∈ q.entries, ¬ (⟨p, q.lastFront - 1, id⟩ : QueueEntry).sameKey f = true := by
  intro f hf
  have := (h.given_out f hf).1
  simp only [QueueEntry.sameKey_iff, toInt_sub_one h.front_nonpos h.neg_le_front hn]
  omega

/-- **An arrival joins behind its period.** -/
theorem Numbered.row_insert {q : ReadyQueue} {n : ℕ} (h : q.Numbered n) {id : TaskId}
    (hid : id ∉ q.ids) (p : Duration) : (q.insert id p).row = q.row.behind (id, p) := by
  have hc := contains_eq_false_iff.2 hid
  simp only [ReadyQueue.insert, hc, Bool.false_eq_true, if_false]
  refine map_place (h.not_sameKey_back id p) fun f hf => ?_
  have := (h.given_out f hf).2
  simp only [QueueEntry.before_iff, Duration.lt_def]
  omega

theorem Numbered.insert {q : ReadyQueue} {n : ℕ} (h : q.Numbered n) (hn : n + 1 < 2 ^ 63)
    (id : TaskId) (p : Duration) : (q.insert id p).Numbered (n + 1) := by
  unfold ReadyQueue.insert
  split
  · exact h.mono (by omega)
  · have hback := toInt_add_one h.back_nonneg h.back_le hn
    have := h.back_nonneg
    have := h.back_le
    have := h.front_nonpos
    have := h.neg_le_front
    refine ⟨by rw [hback]; omega, by rw [hback]; push_cast; omega, h.front_nonpos,
      by push_cast; omega, fun e he => ?_⟩
    rw [hback]
    rcases mem_of_mem_place he with rfl | he
    · simp only
      omega
    · have := h.given_out e he
      simp only
      omega

/-- **A job put back joins ahead of its period.** -/
theorem Numbered.row_insertFront {q : ReadyQueue} {n : ℕ} (h : q.Numbered n)
    (hn : n < 2 ^ 63) {id : TaskId} (hid : id ∉ q.ids) (p : Duration) :
    (q.insertFront id p).row = q.row.ahead (id, p) := by
  have hc := contains_eq_false_iff.2 hid
  simp only [ReadyQueue.insertFront, hc, Bool.false_eq_true, if_false]
  have hfront := toInt_sub_one h.front_nonpos h.neg_le_front hn
  refine map_place (h.not_sameKey_front hn id p) fun f hf => ?_
  have := (h.given_out f hf).1
  simp only [QueueEntry.before_iff, Duration.le_def, hfront]
  omega

theorem Numbered.insertFront {q : ReadyQueue} {n : ℕ} (h : q.Numbered n) (hn : n < 2 ^ 63)
    (id : TaskId) (p : Duration) : (q.insertFront id p).Numbered (n + 1) := by
  unfold ReadyQueue.insertFront
  split
  · exact h.mono (by omega)
  · have hfront := toInt_sub_one h.front_nonpos h.neg_le_front hn
    have := h.back_nonneg
    have := h.back_le
    have := h.front_nonpos
    have := h.neg_le_front
    refine ⟨h.back_nonneg, by push_cast; omega, by rw [hfront]; omega,
      by rw [hfront]; push_cast; omega, fun e he => ?_⟩
    rw [hfront]
    rcases mem_of_mem_place he with rfl | he
    · simp only [hfront]
      omega
    · have := h.given_out e he
      simp only
      omega

theorem Numbered.remove {q : ReadyQueue} {n : ℕ} (h : q.Numbered n) (id : TaskId) :
    (q.remove id).Numbered n where
  back_nonneg := h.back_nonneg
  back_le := h.back_le
  front_nonpos := h.front_nonpos
  neg_le_front := h.neg_le_front
  given_out := fun e he => h.given_out e (List.mem_filter.1 he).1

end ReadyQueue

end RateMonotonic
