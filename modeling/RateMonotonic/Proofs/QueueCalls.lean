/-
**The ready queue is an ordered list.**

Whatever is done to a queue, its tasks stand as in a list that nobody sorts: a task joins right
after the last one of at most its period, a job put back joins right before the first one of at
least its period, and the rest of the list is left alone.  That is so for fewer operations than a counter has
numbers, in whatever order they come: the arrivals count upwards and the jobs put back downwards, so
no key is given out twice, and neither a removal nor a clearance sets a counter back.

A queue of two maps is no different.  As long as no two keys meet, the index names exactly the
entries in the order, so the one map can be asked for what the other holds.

Main definitions:
* `Row.afterLast`, `Row.beforeFirst` — where a task joins a list;
* `Row.call`, `Row.afterCalls` — the operations on a list;
* `IndexedQueue.Indexes` — two maps that are inverse to each other, and hold the entries of a queue;
* `ReadyQueue.RefinesRow` — what can be relied on after a run of operations.

Main results:
* `Row.behind_eq_afterLast`, `Row.ahead_eq_beforeFirst` — insertion by order is insertion by place;
* `ReadyQueue.Follows.call` — **every operation keeps queue and list in step**;
* `IndexedQueue.Indexes.call` — **and the two maps inverse to each other**;
* `ReadyQueue.refinesRow_after` — the queue is an ordered list, after every run of operations.
-/

import Mathlib.Data.List.DropRight
import RateMonotonic.IndexedQueue
import RateMonotonic.Proofs.QueueOrder

set_option relaxedAutoImplicit false
set_option autoImplicit false

namespace RateMonotonic

/-! ### Operations on a list -/

namespace Row

variable {x : TaskId × Duration} {l : Row}

/-- A task joins right after the last one of at most its period. -/
def afterLast (x : TaskId × Duration) (l : Row) : Row :=
  l.rdropWhile (fun y => x.2 < y.2) ++ x :: l.rtakeWhile (fun y => x.2 < y.2)

/-- A task joins right before the first one of at least its period. -/
def beforeFirst (x : TaskId × Duration) (l : Row) : Row :=
  l.takeWhile (fun y => y.2 < x.2) ++ x :: l.dropWhile (fun y => y.2 < x.2)

/-- Whether a task stands in a list. -/
def holds (l : Row) (id : TaskId) : Bool := l.any (·.1 = id)

/-- The answer of an operation on a list of tasks, and the list after it.  A task that is there
stays where it is, with the period that it has. -/
def call (l : Row) : QueueCall → QueueReply × Row
  | .insert id period =>
      (.joined (!l.holds id), if l.holds id then l else afterLast (id, period) l)
  | .insertFront id period =>
      (.joined (!l.holds id), if l.holds id then l else beforeFirst (id, period) l)
  | .remove id => (.removed (l.holds id), l.without id)
  | .pop => (.popped (l.head?.map Prod.fst), l.tail)
  | .clear => (.cleared, [])

/-- What can be seen of a list of tasks. -/
def view (l : Row) : QueueView :=
  ⟨l.map Prod.fst, l.length, l.isEmpty, l.head?, l.holds, fun c => (l.call c).1⟩

/-- The list after a run of operations. -/
def afterCalls (l : Row) (run : List QueueCall) : Row := run.foldl (fun l c => (l.call c).2) l

theorem ahead_eq_beforeFirst (x : TaskId × Duration) (l : Row) : ahead x l = beforeFirst x l := by
  have hle : ∀ y : TaskId × Duration, decide (¬ x.2 ≤ y.2) = decide (y.2 < x.2) := fun y => by
    simp only [Duration.le_def, Duration.lt_def, Nat.not_le]
  simp only [ahead, List.orderedInsert_eq_take_drop, hle, beforeFirst]

/-- What is dropped at the end of a list ends before an entry that stays. -/
theorem rdropWhile_cons {p : TaskId × Duration → Bool} (hx : ¬ p x) :
    (x :: l).rdropWhile p = x :: l.rdropWhile p := by
  induction l using List.reverseRecOn with
  | nil => simp [List.rdropWhile_singleton, hx]
  | append_singleton l y ih =>
      rw [← List.cons_append, List.rdropWhile_concat, List.rdropWhile_concat, ih]
      split <;> rfl

theorem rtakeWhile_cons {p : TaskId × Duration → Bool} (hx : ¬ p x) :
    (x :: l).rtakeWhile p = l.rtakeWhile p := by
  have hall := List.rdropWhile_append_rtakeWhile (p := p) (l := x :: l)
  have hrest := List.rdropWhile_append_rtakeWhile (p := p) (l := l)
  rw [rdropWhile_cons hx, List.cons_append] at hall
  exact List.append_cancel_left ((List.cons.inj hall).2.trans hrest.symm)

/-- In an ascending list, those of at most a period stand in front of all others. -/
theorem behind_eq_afterLast (h : l.Ascending) : behind x l = afterLast x l := by
  induction l with
  | nil => rfl
  | cons z l ih =>
      obtain ⟨hz, hl⟩ := List.pairwise_cons.1 h
      simp only [behind, List.orderedInsert_cons, afterLast] at ih ⊢
      split
      · next hlt =>
          have hall : ∀ y ∈ z :: l, decide (x.2 < y.2) = true := by
            intro y hy
            rcases List.mem_cons.1 hy with rfl | hy
            · exact decide_eq_true hlt
            · exact decide_eq_true (Nat.lt_of_lt_of_le hlt (hz y hy))
          rw [List.rdropWhile_eq_nil_iff.2 hall, List.rtakeWhile_eq_self_iff.2 hall]
          rfl
      · next hlt =>
          rw [rdropWhile_cons (by simpa using hlt), rtakeWhile_cons (by simpa using hlt),
            List.cons_append, ih hl]

theorem holds_iff {id : TaskId} : l.holds id = true ↔ id ∈ l.map Prod.fst := by
  simp [holds]

end Row

/-! ### The queue and the list -/

namespace ReadyQueue

variable {q : ReadyQueue} {l : Row} {n : ℕ}

/-- A queue whose tasks stand as in a list, after at most so many operations. -/
structure Follows (n : ℕ) (q : ReadyQueue) (l : Row) : Prop where
  order : q.InOrder
  numbered : q.Numbered n
  row : q.row = l

theorem follows_empty : empty.Follows 0 [] := ⟨inOrder_empty, numbered_empty, rfl⟩

/-- The queue after a run of operations. -/
def afterCalls (q : ReadyQueue) (run : List QueueCall) : ReadyQueue :=
  run.foldl (fun q c => (q.call c).2) q

theorem Follows.ids_eq (h : q.Follows n l) : q.ids = l.map Prod.fst := by
  rw [ids_eq_map_row, h.row]

theorem Follows.contains_eq (h : q.Follows n l) (id : TaskId) : q.contains id = l.holds id := by
  rw [Bool.eq_iff_iff, contains_iff, h.ids_eq, Row.holds_iff]

theorem Follows.ascending (h : q.Follows n l) : l.Ascending := h.row ▸ h.order.ascending

theorem Follows.once (h : q.Follows n l) : (l.map Prod.fst).Nodup := h.ids_eq ▸ h.order.once

/-! ### What the operations keep -/

/-- Some of the entries, with the counters as they are. -/
theorem InOrder.sublist (h : q.InOrder) {entries : List QueueEntry}
    (hsub : entries.Sublist q.entries) : ({ q with entries := entries } : ReadyQueue).InOrder :=
  ⟨h.sorted.sublist hsub, h.once.sublist (hsub.map QueueEntry.id)⟩

theorem Numbered.sublist (h : q.Numbered n) {entries : List QueueEntry}
    (hsub : entries.Sublist q.entries) :
    ({ q with entries := entries } : ReadyQueue).Numbered n where
  back_nonneg := h.back_nonneg
  back_le := h.back_le
  front_nonpos := h.front_nonpos
  neg_le_front := h.neg_le_front
  given_out := fun e he => h.given_out e (hsub.subset he)

theorem Follows.insert (h : q.Follows n l) (hn : n + 1 < 2 ^ 63) (id : TaskId) (p : Duration) :
    (q.insert id p).Follows (n + 1)
      (if l.holds id then l else Row.afterLast (id, p) l) := by
  refine ⟨h.order.insert id p, h.numbered.insert hn id p, ?_⟩
  rw [← h.contains_eq]
  split
  · next hc => rw [insert_of_contains hc, h.row]
  · next hc =>
      rw [h.numbered.row_insert (contains_eq_false_iff.1 (by simpa using hc)), h.row,
        Row.behind_eq_afterLast h.ascending]

theorem Follows.insertFront (h : q.Follows n l) (hn : n + 1 < 2 ^ 63) (id : TaskId)
    (p : Duration) :
    (q.insertFront id p).Follows (n + 1)
      (if l.holds id then l else Row.beforeFirst (id, p) l) := by
  refine ⟨h.order.insertFront id p, h.numbered.insertFront (by omega) id p, ?_⟩
  rw [← h.contains_eq]
  split
  · next hc => rw [insertFront_of_contains hc, h.row]
  · next hc =>
      rw [h.numbered.row_insertFront (by omega) (contains_eq_false_iff.1 (by simpa using hc)),
        h.row, Row.ahead_eq_beforeFirst]

/-- Every operation is answered as on the list. -/
theorem Follows.reply_eq (h : q.Follows n l) (c : QueueCall) : (q.call c).1 = (l.call c).1 := by
  cases c with
  | insert id p => exact congrArg (fun b => QueueReply.joined !b) (h.contains_eq id)
  | insertFront id p => exact congrArg (fun b => QueueReply.joined !b) (h.contains_eq id)
  | remove id => exact congrArg QueueReply.removed (h.contains_eq id)
  | pop =>
      simp only [ReadyQueue.call, Row.call, pop?, ← h.row, ReadyQueue.row]
      cases q.entries <;> rfl
  | clear => rfl

/-- **Every operation keeps queue and list in step.** -/
theorem Follows.call (h : q.Follows n l) (hn : n + 1 < 2 ^ 63) (c : QueueCall) :
    (q.call c).2.Follows (n + 1) (l.call c).2 := by
  cases c with
  | insert id p => exact h.insert hn id p
  | insertFront id p => exact h.insertFront hn id p
  | remove id =>
      refine ⟨h.order.remove id, (h.numbered.remove id).mono (Nat.le_succ n), ?_⟩
      simp only [ReadyQueue.call, row_remove, h.row, Row.call]
  | pop =>
      have hrow := h.row
      cases hentries : q.entries with
      | nil =>
          simp only [ReadyQueue.row, hentries, List.map_nil] at hrow
          simp only [ReadyQueue.call, pop?, hentries, Row.call, ← hrow]
          exact ⟨h.order, h.numbered.mono (Nat.le_succ n), by simp [ReadyQueue.row, hentries]⟩
      | cons e rest =>
          have hsub : rest.Sublist q.entries := hentries ▸ List.sublist_cons_self e rest
          simp only [ReadyQueue.row, hentries, List.map_cons] at hrow
          simp only [ReadyQueue.call, pop?, hentries, Row.call, ← hrow]
          exact ⟨h.order.sublist hsub, (h.numbered.sublist hsub).mono (Nat.le_succ n), rfl⟩
  | clear =>
      exact ⟨h.order.sublist (List.nil_sublist _),
        (h.numbered.sublist (List.nil_sublist _)).mono (Nat.le_succ n), rfl⟩

/-- A queue that is in step with a list looks like it. -/
theorem Follows.view_eq (h : q.Follows n l) : q.view = l.view := by
  have hsize : q.size = l.length := by simp [size, ← h.row, ReadyQueue.row]
  have hempty : q.isEmpty = l.isEmpty := by simp [isEmpty, ← h.row, ReadyQueue.row]
  have hhead : q.head? = l.head? := by rw [head?_eq_row, h.row]
  simp only [ReadyQueue.view, Row.view, h.ids_eq, hsize, hempty, hhead, funext h.contains_eq,
    h.reply_eq]

end ReadyQueue

/-! ### The two maps -/

namespace IndexedQueue

variable {x : IndexedQueue} {q : ReadyQueue} {n : ℕ}

/-- Two maps that hold the entries of a queue, the one under their keys and the other under their
tasks. -/
structure Indexes (x : IndexedQueue) (q : ReadyQueue) : Prop where
  order : x.order = q.entries
  /-- A task has a key exactly when the key has the task. -/
  inverse : ∀ id key, x.index.get? id = some key ↔ key.entry id ∈ x.order
  nextBack : x.nextBack = q.nextBack
  lastFront : x.lastFront = q.lastFront

theorem indexes_empty : empty.Indexes ReadyQueue.empty :=
  ⟨rfl, fun _ _ => by simp [empty], rfl, rfl⟩

/-- The two maps after a run of operations. -/
def afterCalls (x : IndexedQueue) (run : List QueueCall) : IndexedQueue :=
  run.foldl (fun x c => (x.call c).2) x

theorem Indexes.mem_ids_iff (h : x.Indexes q) {id : TaskId} :
    id ∈ q.ids ↔ ∃ key, x.index.get? id = some key := by
  simp only [h.inverse, h.order, ReadyQueue.ids, List.mem_map]
  constructor
  · rintro ⟨e, he, rfl⟩
    exact ⟨e.key, he⟩
  · rintro ⟨key, hkey⟩
    exact ⟨key.entry id, hkey, rfl⟩

theorem Indexes.contains_eq (h : x.Indexes q) (id : TaskId) :
    x.index.contains id = q.contains id := by
  rw [Bool.eq_iff_iff, ReadyQueue.contains_iff, h.mem_ids_iff, Table.contains,
    Option.isSome_iff_exists]

/-- Where no two keys meet, placing an entry leaves all others. -/
theorem mem_place_iff {e f : QueueEntry} {l : List QueueEntry}
    (hk : ∀ g ∈ l, ¬ e.sameKey g = true) : f ∈ ReadyQueue.place e l ↔ f = e ∨ f ∈ l := by
  induction l with
  | nil => simp [ReadyQueue.place]
  | cons g l ih =>
      have hrest := ih fun k hkl => hk k (List.mem_cons_of_mem g hkl)
      simp only [ReadyQueue.place, hk g List.mem_cons_self]
      split
      · simp
      · simp only [Bool.false_eq_true, if_false, List.mem_cons, hrest]
        tauto

/-- **Entering a task under a key that nobody has** keeps the two maps inverse to each other. -/
theorem Indexes.push (h : x.Indexes q) {id : TaskId} (key : QueueKey)
    (hid : q.contains id = false) (hk : ∀ f ∈ q.entries, ¬ (key.entry id).sameKey f = true)
    (back front : Int64) :
    (({ x with nextBack := back, lastFront := front } : IndexedQueue).push id key).Indexes
      ⟨ReadyQueue.place (key.entry id) q.entries, back, front⟩ := by
  refine ⟨by simp only [IndexedQueue.push, h.order], fun j k => ?_, rfl, rfl⟩
  have hmem : k.entry j ∈ ReadyQueue.place (key.entry id) x.order ↔
      k.entry j = key.entry id ∨ k.entry j ∈ x.order :=
    mem_place_iff (h.order ▸ hk)
  simp only [IndexedQueue.push, hmem, Table.get?_insert]
  split
  · next hj =>
      subst hj
      have hnot : k.entry id ∉ x.order := fun hm =>
        ReadyQueue.contains_eq_false_iff.1 hid (h.mem_ids_iff.2 ⟨k, (h.inverse id k).2 hm⟩)
      constructor
      · rintro ⟨⟩
        exact Or.inl rfl
      · rintro (heq | hm)
        · cases k
          cases key
          simp_all [QueueKey.entry]
        · exact absurd hm hnot
  · next hj =>
      rw [h.inverse]
      refine (or_iff_right fun heq => hj ?_).symm
      exact (congrArg QueueEntry.id heq).symm

theorem Indexes.insert (h : x.Indexes q) (hn : q.Numbered n) (id : TaskId) (p : Duration) :
    (x.insert id p).2.Indexes (q.insert id p) := by
  simp only [IndexedQueue.insert, ReadyQueue.insert, h.contains_eq]
  cases hc : q.contains id with
  | true => exact h
  | false =>
      have hpush := h.push ⟨p, q.nextBack⟩ hc (hn.not_sameKey_back id p) (q.nextBack + 1)
        q.lastFront
      simp only [h.nextBack, h.lastFront]
      exact hpush

theorem Indexes.insertFront (h : x.Indexes q) (hn : q.Numbered n) (hlt : n < 2 ^ 63) (id : TaskId)
    (p : Duration) : (x.insertFront id p).2.Indexes (q.insertFront id p) := by
  simp only [IndexedQueue.insertFront, ReadyQueue.insertFront, h.contains_eq]
  cases hc : q.contains id with
  | true => exact h
  | false =>
      have hpush := h.push ⟨p, q.lastFront - 1⟩ hc (hn.not_sameKey_front hlt id p) q.nextBack
        (q.lastFront - 1)
      simp only [h.nextBack, h.lastFront]
      exact hpush

/-- No two entries have the same key. -/
theorem nodup_keys (hq : q.InOrder) : (q.entries.map QueueEntry.key).Nodup := by
  refine List.pairwise_map.2 (hq.sorted.imp fun hbefore heq => ?_)
  obtain ⟨hperiod, hnumber⟩ := QueueKey.mk.inj heq
  rw [QueueEntry.before_iff, hperiod, hnumber] at hbefore
  omega

/-- What the key of a queued task takes out of the order is the entry of the task. -/
theorem Indexes.filter_key (h : x.Indexes q) (hq : q.InOrder) {id : TaskId} {key : QueueKey}
    (hkey : x.index.get? id = some key) :
    x.order.filter (·.key ≠ key) = x.order.filter (·.id ≠ id) := by
  refine List.filter_congr fun e he => ?_
  have hiff : e.key = key ↔ e.id = id := by
    constructor
    · intro heq
      have hentry := (h.inverse id key).1 hkey
      rw [h.order] at he hentry
      exact congrArg QueueEntry.id (List.inj_on_of_nodup_map (nodup_keys hq) he hentry heq)
    · rintro rfl
      have hown := (h.inverse e.id e.key).2 he
      rw [hkey] at hown
      exact (Option.some.inj hown).symm
  simp [hiff]

/-- Leaving out a task in the order and in the index leaves the two maps inverse to each other. -/
theorem Indexes.erase (h : x.Indexes q) (id : TaskId) :
    ({ x with order := x.order.filter (·.id ≠ id), index := x.index.erase id } :
      IndexedQueue).Indexes (q.remove id) := by
  refine ⟨by simp only [ReadyQueue.remove, h.order], fun j k => ?_, h.nextBack, h.lastFront⟩
  simp only [Table.get?_erase, List.mem_filter, QueueKey.entry, ne_eq, decide_eq_true_eq]
  split
  · next hj => simp [hj]
  · next hj => exact (h.inverse j k).trans (iff_self_and.2 fun _ => Ne.symm hj)

theorem Indexes.remove (h : x.Indexes q) (hq : q.InOrder) (id : TaskId) :
    (x.remove id).2.Indexes (q.remove id) := by
  unfold IndexedQueue.remove
  split
  · next key hkey =>
      rw [h.filter_key hq hkey]
      exact h.erase id
  · next hnone =>
      have hid : id ∉ q.ids := fun hm => by
        obtain ⟨key, hkey⟩ := h.mem_ids_iff.1 hm
        rw [hnone] at hkey
        cases hkey
      rw [ReadyQueue.remove_of_not_mem hid]
      exact h

/-- The first task leaves an ordered queue as any other would. -/
theorem filter_first {e : QueueEntry} {rest : List QueueEntry} (hq : q.InOrder)
    (hentries : q.entries = e :: rest) : q.entries.filter (·.id ≠ e.id) = rest := by
  have honce := hq.once
  rw [ReadyQueue.ids, hentries, List.map_cons, List.nodup_cons] at honce
  rw [hentries, List.filter_cons_of_neg (by simp)]
  refine List.filter_eq_self.2 fun f hf => decide_eq_true fun heq => honce.1 ?_
  exact heq ▸ List.mem_map_of_mem hf

/-- Every operation is answered as on the queue. -/
theorem Indexes.reply_eq (h : x.Indexes q) (c : QueueCall) : (x.call c).1 = (q.call c).1 := by
  cases c with
  | insert id p =>
      simp only [IndexedQueue.call, ReadyQueue.call, IndexedQueue.insert, h.contains_eq]
      cases q.contains id <;> rfl
  | insertFront id p =>
      simp only [IndexedQueue.call, ReadyQueue.call, IndexedQueue.insertFront, h.contains_eq]
      cases q.contains id <;> rfl
  | remove id =>
      simp only [IndexedQueue.call, ReadyQueue.call, IndexedQueue.remove, ← h.contains_eq,
        Table.contains]
      cases x.index.get? id <;> rfl
  | pop =>
      simp only [IndexedQueue.call, ReadyQueue.call, IndexedQueue.pop, ReadyQueue.pop?, h.order]
      cases q.entries <;> rfl
  | clear => rfl

/-- **Every operation keeps the two maps inverse to each other.** -/
theorem Indexes.call (h : x.Indexes q) (hq : q.InOrder) (hn : q.Numbered n) (hlt : n < 2 ^ 63)
    (c : QueueCall) : (x.call c).2.Indexes (q.call c).2 := by
  cases c with
  | insert id p => exact h.insert hn id p
  | insertFront id p => exact h.insertFront hn hlt id p
  | remove id => exact h.remove hq id
  | pop =>
      cases hentries : q.entries with
      | nil =>
          simp only [IndexedQueue.call, IndexedQueue.pop, ReadyQueue.call, ReadyQueue.pop?, h.order,
            hentries]
          exact h
      | cons e rest =>
          have hleft := h.erase e.id
          simp only [ReadyQueue.remove, h.order, filter_first hq hentries] at hleft
          simp only [IndexedQueue.call, IndexedQueue.pop, ReadyQueue.call, ReadyQueue.pop?, h.order,
            hentries]
          exact hleft
  | clear =>
      exact ⟨rfl, fun id key => by simp [IndexedQueue.call, IndexedQueue.clear], h.nextBack,
        h.lastFront⟩

/-- Two maps that hold the entries of a queue look like it. -/
theorem Indexes.view_eq (h : x.Indexes q) : x.view = q.view := by
  have hids : x.ids = q.ids := congrArg (List.map _) h.order
  have hsize : x.size = q.size := congrArg List.length h.order
  have hempty : x.isEmpty = q.isEmpty := congrArg List.isEmpty h.order
  have hhead : x.head? = q.head? := by simp only [IndexedQueue.head?, h.order, ReadyQueue.head?]
  have hcontains : x.contains = q.contains := funext h.contains_eq
  simp only [IndexedQueue.view, ReadyQueue.view, hids, hsize, hempty, hhead, hcontains, h.reply_eq]

end IndexedQueue

/-! ### Runs of operations -/

namespace ReadyQueue

variable {q : ReadyQueue} {x : IndexedQueue} {l : Row} {n : ℕ}

/-- A run of operations keeps queue and list in step while numbers last. -/
theorem Follows.afterCalls (h : q.Follows n l) (run : List QueueCall)
    (hn : n + run.length < 2 ^ 63) :
    (q.afterCalls run).Follows (n + run.length) (l.afterCalls run) := by
  induction run generalizing q l n with
  | nil => exact h
  | cons c run ih =>
      simp only [List.length_cons] at hn ⊢
      have hrest := ih (h.call (by omega) c) (by omega)
      rw [show n + (run.length + 1) = n + 1 + run.length by omega]
      exact hrest

/-- A run of operations keeps the two maps inverse to each other while numbers last. -/
theorem Follows.indexes_afterCalls (h : q.Follows n l) (hx : x.Indexes q) (run : List QueueCall)
    (hn : n + run.length < 2 ^ 63) : (x.afterCalls run).Indexes (q.afterCalls run) := by
  induction run generalizing q x l n with
  | nil => exact hx
  | cons c run ih =>
      simp only [List.length_cons] at hn
      exact ih (h.call (by omega) c) (hx.call h.order h.numbered (by omega) c) (by omega)

/-- What can be relied on after a run of operations on an empty queue. -/
structure RefinesRow (run : List QueueCall) : Prop where
  /-- The queue looks like the list, and answers every further operation like it. -/
  view : (empty.afterCalls run).view = (Row.afterCalls [] run).view
  /-- Every task stands in the queue with the period that it has in the list. -/
  row : (empty.afterCalls run).row = Row.afterCalls [] run
  /-- No task stands in the list twice. -/
  once : ((Row.afterCalls [] run).map Prod.fst).Nodup
  /-- The periods ascend along the list. -/
  ascending : (Row.afterCalls [] run).Ascending
  /-- The two maps look like the list, and answer every further operation like it. -/
  indexed : (IndexedQueue.empty.afterCalls run).view = (Row.afterCalls [] run).view
  /-- The one map has a key for a task exactly when the other has the task for the key. -/
  inverse : ∀ id key, (IndexedQueue.empty.afterCalls run).index.get? id = some key ↔
    key.entry id ∈ (IndexedQueue.empty.afterCalls run).order
  /-- No two tasks have the same key. -/
  keys : ((IndexedQueue.empty.afterCalls run).order.map QueueEntry.key).Nodup

/-- **The ready queue is an ordered list**, after every run of fewer operations than a counter has
numbers. -/
theorem refinesRow_after (run : List QueueCall) (hrun : run.length < 2 ^ 63) : RefinesRow run := by
  have h := follows_empty.afterCalls run (by omega)
  have hx := follows_empty.indexes_afterCalls IndexedQueue.indexes_empty run (by omega)
  exact
    { view := h.view_eq
      row := h.row
      once := h.once
      ascending := h.ascending
      indexed := hx.view_eq.trans h.view_eq
      inverse := hx.inverse
      keys := hx.order ▸ IndexedQueue.nodup_keys h.order }

/-- Tasks of two periods join at both ends, one of them a second time with another period, and join
anew after one of them has been taken out and after all have been. -/
def rejoining : List QueueCall :=
  let short := Duration.ofMillis 50
  let long := Duration.ofMillis 100
  [.insert ⟨1⟩ long, .insertFront ⟨2⟩ short, .clear, .insert ⟨3⟩ long, .insert ⟨1⟩ long,
    .insertFront ⟨4⟩ long, .insert ⟨3⟩ short, .remove ⟨3⟩, .insert ⟨3⟩ long, .insertFront ⟨2⟩ short,
    .insertFront ⟨5⟩ short, .pop]

theorem refinesRow_after_rejoining :
    rejoining.length < 2 ^ 63 ∧ (Row.afterCalls [] rejoining).map Prod.fst = [⟨2⟩, ⟨4⟩, ⟨1⟩, ⟨3⟩] ∧
      (IndexedQueue.empty.afterCalls rejoining).order.map (·.number) = [-3, -2, 2, 3] ∧
        RefinesRow rejoining :=
  ⟨by decide, by decide, by decide, refinesRow_after rejoining (by decide)⟩

end ReadyQueue

end RateMonotonic
