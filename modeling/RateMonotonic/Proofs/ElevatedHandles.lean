/-
**Which handles are elevated, and in which order.**

The elevated handles are computed from all requests so far, oldest first: an elevation puts its
handle at the end of the list, or finds it there, and a reset takes its handle out.  So a handle is
in the list from its first elevation after a reset to its next reset, and its place is fixed by that
elevation: what is asked for it in between changes nothing, and what is asked for other handles
never moves it.

Main definitions:
* `PriorityLog.ofRequests` — the log of a row of requests;
* `PriorityLog.RisesAt` — where in the log a handle's present elevation began;
* `PriorityLog.Lists` — a list of handles in the order in which their elevations began;
* `PriorityLog.Faithful` — what the list of elevated handles tells about the log.

Main results:
* `PriorityLog.Lists.record` — **one more request keeps the list in order**;
* `PriorityLog.elevated_filter` — requests for other handles can be left out;
* `PriorityLog.faithful_ofRequests` — **the elevated handles are right after every row of requests**.
-/

import Mathlib.Data.List.Induction
import RateMonotonic.Proofs.HolderPriority

set_option relaxedAutoImplicit false
set_option autoImplicit false

namespace RateMonotonic.PriorityLog

variable {log : PriorityLog} {h k : ExecHandle} {i j : ℕ}

/-- The log of a row of requests, made one after the other. -/
def ofRequests (requests : List PriorityEvent) : PriorityLog := requests.foldl record empty

theorem ofRequests_concat (requests : List PriorityEvent) (e : PriorityEvent) :
    ofRequests (requests ++ [e]) = (ofRequests requests).record e := by
  simp [ofRequests]

/-- The log of a row of requests has these requests. -/
theorem events_ofRequests (requests : List PriorityEvent) :
    (ofRequests requests).events = requests := by
  induction requests using List.reverseRecOn with
  | nil => rfl
  | append_singleton requests e ih => rw [ofRequests_concat, record, ih]

/-! ### Where an elevation began -/

/-- The request at this place elevates the handle. -/
def ElevatesAt (log : PriorityLog) (h : ExecHandle) (i : ℕ) : Prop :=
  ∃ c level, log.events[i]? = some (.elevate h c level)

/-- The request at this place resets the handle. -/
def ResetsAt (log : PriorityLog) (h : ExecHandle) (i : ℕ) : Prop :=
  log.events[i]? = some (.reset h)

/-- **The present elevation of a handle began here**: this is its first elevation since its last
reset, if it has been reset at all. -/
structure RisesAt (log : PriorityLog) (h : ExecHandle) (i : ℕ) : Prop where
  elevates : log.ElevatesAt h i
  /-- The handle has not been reset since. -/
  unreset : ∀ j, i < j → ¬log.ResetsAt h j
  /-- Every earlier elevation of the handle has been reset before this one. -/
  first : ∀ j < i, log.ElevatesAt h j → ∃ k, j < k ∧ k < i ∧ log.ResetsAt h k

/-- A handle's elevation begins at one place. -/
theorem RisesAt.unique (hi : log.RisesAt h i) (hj : log.RisesAt h j) : i = j := by
  rcases Nat.lt_trichotomy i j with hlt | heq | hlt
  · obtain ⟨k, hik, -, hreset⟩ := hj.first i hlt hi.elevates
    exact absurd hreset (hi.unreset k hik)
  · exact heq
  · obtain ⟨k, hjk, -, hreset⟩ := hi.first j hlt hj.elevates
    exact absurd hreset (hj.unreset k hjk)

theorem ElevatesAt.lt (he : log.ElevatesAt h i) : i < log.events.length := by
  obtain ⟨c, level, heq⟩ := he
  exact (List.getElem?_eq_some_iff.1 heq).1

theorem ResetsAt.lt (hr : log.ResetsAt h i) : i < log.events.length :=
  (List.getElem?_eq_some_iff.1 hr).1

/-! ### One more request -/

variable {e : PriorityEvent}

theorem elevatesAt_record :
    (log.record e).ElevatesAt h i ↔
      log.ElevatesAt h i ∨ i = log.events.length ∧ ∃ c level, e = .elevate h c level := by
  simp only [ElevatesAt, record]
  rcases Nat.lt_trichotomy i log.events.length with hlt | rfl | hgt
  · rw [List.getElem?_append_left hlt]
    have hne : i ≠ log.events.length := by omega
    simp [hne]
  · simp
  · rw [List.getElem?_eq_none (by simp; omega), List.getElem?_eq_none (by omega)]
    have hne : i ≠ log.events.length := by omega
    simp [hne]

theorem resetsAt_record :
    (log.record e).ResetsAt h i ↔ log.ResetsAt h i ∨ i = log.events.length ∧ e = .reset h := by
  simp only [ResetsAt, record]
  rcases Nat.lt_trichotomy i log.events.length with hlt | rfl | hgt
  · rw [List.getElem?_append_left hlt]
    have hne : i ≠ log.events.length := by omega
    simp [hne]
  · simp
  · rw [List.getElem?_eq_none (by simp; omega), List.getElem?_eq_none (by omega)]
    have hne : i ≠ log.events.length := by omega
    simp [hne]

/-- An elevation goes on, unless its handle is reset. -/
theorem RisesAt.record (hi : log.RisesAt h i) (hne : e ≠ .reset h) : (log.record e).RisesAt h i where
  elevates := elevatesAt_record.2 (Or.inl hi.elevates)
  unreset := by
    intro j hij hreset
    rcases resetsAt_record.1 hreset with hold | ⟨-, heq⟩
    · exact hi.unreset j hij hold
    · exact hne heq
  first := by
    intro j hji helevates
    have hlt := hi.elevates.lt
    rcases elevatesAt_record.1 helevates with hold | ⟨rfl, -⟩
    · obtain ⟨k, hjk, hki, hreset⟩ := hi.first j hji hold
      exact ⟨k, hjk, hki, resetsAt_record.2 (Or.inl hreset)⟩
    · omega

/-- Every elevation of a handle has been followed by a reset. -/
def Settled (log : PriorityLog) (h : ExecHandle) : Prop :=
  ∀ j, log.ElevatesAt h j → ∃ k, j < k ∧ log.ResetsAt h k

/-- A handle stays settled, unless it is elevated. -/
theorem Settled.record (hs : log.Settled h) (hne : ∀ c level, e ≠ .elevate h c level) :
    (log.record e).Settled h := by
  intro j helevates
  rcases elevatesAt_record.1 helevates with hold | ⟨-, c, level, heq⟩
  · obtain ⟨k, hjk, hreset⟩ := hs j hold
    exact ⟨k, hjk, resetsAt_record.2 (Or.inl hreset)⟩
  · exact absurd heq (hne c level)

/-- A reset settles its handle. -/
theorem settled_reset (log : PriorityLog) (h : ExecHandle) : (log.record (.reset h)).Settled h := by
  intro j helevates
  refine ⟨log.events.length, ?_, resetsAt_record.2 (Or.inr ⟨rfl, rfl⟩)⟩
  rcases elevatesAt_record.1 helevates with hold | ⟨-, c, level, heq⟩
  · exact hold.lt
  · cases heq

/-- The elevation of a settled handle begins with the request. -/
theorem Settled.risesAt (hs : log.Settled h) (c : SchedClass) (level : Int32) :
    (log.record (.elevate h c level)).RisesAt h log.events.length where
  elevates := elevatesAt_record.2 (Or.inr ⟨rfl, c, level, rfl⟩)
  unreset := by
    intro j hlt hreset
    rcases resetsAt_record.1 hreset with hold | ⟨rfl, -⟩
    · exact absurd hold.lt (by omega)
    · omega
  first := by
    intro j hlt helevates
    rcases elevatesAt_record.1 helevates with hold | ⟨rfl, -⟩
    · obtain ⟨k, hjk, hreset⟩ := hs j hold
      exact ⟨k, hjk, hreset.lt, resetsAt_record.2 (Or.inl hreset)⟩
    · omega

/-! ### The list of elevated handles -/

/-- The elevation of one handle began before that of another. -/
def RoseBefore (log : PriorityLog) (h k : ExecHandle) : Prop :=
  ∃ i j, log.RisesAt h i ∧ log.RisesAt k j ∧ i < j

/-- **A list of handles in the order in which their elevations began**; the other handles are
settled. -/
structure Lists (log : PriorityLog) (handles : List ExecHandle) : Prop where
  risen : ∀ h ∈ handles, ∃ i, log.RisesAt h i
  settled : ∀ h, h ∉ handles → log.Settled h
  order : handles.Pairwise log.RoseBefore

variable {handles : List ExecHandle}

theorem lists_empty : Lists empty [] where
  risen := by
    intro h hmem
    cases hmem
  settled := by
    intro h _ j ⟨c, level, heq⟩
    cases heq
  order := List.Pairwise.nil

theorem RoseBefore.record (hb : log.RoseBefore h k) (hh : e ≠ .reset h) (hk : e ≠ .reset k) :
    (log.record e).RoseBefore h k := by
  obtain ⟨i, j, hi, hj, hlt⟩ := hb
  exact ⟨i, j, hi.record hh, hj.record hk, hlt⟩

/-- An elevation of a handle in the list changes nothing. -/
theorem Lists.elevate_of_mem (hl : log.Lists handles) (hmem : h ∈ handles) (c : SchedClass)
    (level : Int32) : (log.record (.elevate h c level)).Lists handles where
  risen := by
    intro k hk
    obtain ⟨i, hi⟩ := hl.risen k hk
    exact ⟨i, hi.record nofun⟩
  settled := by
    intro k hk
    refine (hl.settled k hk).record fun c' level' heq => hk ?_
    cases heq
    exact hmem
  order := hl.order.imp fun hb => hb.record nofun nofun

/-- An elevation of another handle puts it at the end. -/
theorem Lists.elevate_of_notMem (hl : log.Lists handles) (hmem : h ∉ handles) (c : SchedClass)
    (level : Int32) : (log.record (.elevate h c level)).Lists (handles ++ [h]) := by
  have hrises := (hl.settled h hmem).risesAt c level
  refine ⟨?_, ?_, ?_⟩
  · intro k hk
    rcases List.mem_append.1 hk with hold | hnew
    · obtain ⟨i, hi⟩ := hl.risen k hold
      exact ⟨i, hi.record nofun⟩
    · rw [List.mem_singleton.1 hnew]
      exact ⟨_, hrises⟩
  · intro k hk
    rw [List.mem_append, List.mem_singleton, not_or] at hk
    refine (hl.settled k hk.1).record fun c' level' heq => hk.2 ?_
    cases heq
    rfl
  · rw [List.pairwise_append]
    refine ⟨hl.order.imp fun hb => hb.record nofun nofun, List.pairwise_singleton _ _, ?_⟩
    intro k hk l hnew
    obtain ⟨i, hi⟩ := hl.risen k hk
    rw [List.mem_singleton.1 hnew]
    exact ⟨i, _, hi.record nofun, hrises, hi.elevates.lt⟩

/-- A reset takes its handle out and leaves the others where they are. -/
theorem Lists.reset (hl : log.Lists handles) (h : ExecHandle) :
    (log.record (.reset h)).Lists (handles.filter (· ≠ h)) := by
  have hkeeps : ∀ k ∈ handles.filter (· ≠ h), PriorityEvent.reset h ≠ .reset k := by
    intro k hk heq
    cases heq
    simp at hk
  refine ⟨?_, ?_, ?_⟩
  · intro k hk
    obtain ⟨i, hi⟩ := hl.risen k (List.mem_of_mem_filter hk)
    exact ⟨i, hi.record (hkeeps k hk)⟩
  · intro k hk
    by_cases heq : k = h
    · rw [heq]
      exact settled_reset log h
    · have hout : k ∉ handles := fun hmem => hk (List.mem_filter.2 ⟨hmem, by simpa using heq⟩)
      exact (hl.settled k hout).record nofun
  · refine (hl.order.filter _).imp_of_mem fun hk hl hb => ?_
    exact hb.record (hkeeps _ hk) (hkeeps _ hl)

/-- **One more request keeps the list in order.** -/
theorem Lists.record (hl : log.Lists handles) (e : PriorityEvent) :
    (log.record e).Lists (elevatedAfter handles e) := by
  cases e with
  | elevate h c level =>
      by_cases hmem : h ∈ handles
      · rw [elevatedAfter, if_pos hmem]
        exact hl.elevate_of_mem hmem c level
      · rw [elevatedAfter, if_neg hmem]
        exact hl.elevate_of_notMem hmem c level
  | reset h => exact hl.reset h

theorem lists_elevated (requests : List PriorityEvent) :
    (ofRequests requests).Lists (ofRequests requests).elevated := by
  induction requests using List.reverseRecOn with
  | nil => exact lists_empty
  | append_singleton requests e ih =>
      rw [ofRequests_concat, elevated_record]
      exact ih.record e

theorem Lists.nodup (hl : log.Lists handles) : handles.Nodup := by
  refine hl.order.imp ?_
  rintro h k ⟨i, j, hi, hj, hlt⟩ rfl
  exact absurd (hi.unique hj) (Nat.ne_of_lt hlt)

theorem Lists.mem_iff (hl : log.Lists handles) : h ∈ handles ↔ ∃ i, log.RisesAt h i := by
  refine ⟨hl.risen h, ?_⟩
  rintro ⟨i, hi⟩
  by_contra hmem
  obtain ⟨k, hik, hreset⟩ := hl.settled h hmem i hi.elevates
  exact hi.unreset k hik hreset

theorem Lists.pairwise_lt (hl : log.Lists handles) :
    handles.Pairwise fun h k => ∀ i j, log.RisesAt h i → log.RisesAt k j → i < j := by
  refine hl.order.imp ?_
  rintro h k ⟨i', j', hi', hj', hlt⟩ i j hi hj
  rwa [hi.unique hi', hj.unique hj']

/-! ### Latest requests -/

/-- **Elevated are the handles whose latest request is an elevation.** -/
theorem mem_elevated_iff (requests : List PriorityEvent) (h : ExecHandle) :
    h ∈ (ofRequests requests).elevated ↔ (ofRequests requests).raised h = true := by
  induction requests using List.reverseRecOn with
  | nil => simp [ofRequests, elevated, empty, raised, latest?]
  | append_singleton requests e ih =>
      rw [ofRequests_concat]
      cases e with
      | elevate k c level =>
          change h ∈ ((ofRequests requests).elevate k c level).elevated ↔
            ((ofRequests requests).elevate k c level).raised h = true
          rw [elevated_elevate]
          by_cases hk : k = h
          · rw [hk, raised_elevate]
            split
            · next hmem => simp [hmem]
            · simp
          · rw [raised_elevate_of_ne _ hk, ← ih]
            split
            · rfl
            · simp [Ne.symm hk]
      | reset k =>
          change h ∈ ((ofRequests requests).reset k).elevated ↔
            ((ofRequests requests).reset k).raised h = true
          rw [elevated_reset, raised_reset, List.mem_filter, ih]
          by_cases hk : k = h
          · simp [hk]
          · simp [hk, Ne.symm hk]

/-! ### Requests for other handles -/

variable {p : ExecHandle → Bool}

/-- A request for a handle that is kept does the same to the handles that are kept. -/
theorem elevatedAfter_filter (hp : p e.handle = true) (handles : List ExecHandle) :
    elevatedAfter (handles.filter p) e = (elevatedAfter handles e).filter p := by
  cases e with
  | elevate h c level =>
      have hkept : p h = true := hp
      have hmem : h ∈ handles.filter p ↔ h ∈ handles := by
        rw [List.mem_filter]
        exact and_iff_left hkept
      simp only [elevatedAfter, hmem]
      split
      · rfl
      · simp [hkept]
  | reset h => exact List.filter_comm ..

/-- A request for another handle does nothing to them. -/
theorem filter_elevatedAfter (hp : p e.handle = false) (handles : List ExecHandle) :
    (elevatedAfter handles e).filter p = handles.filter p := by
  cases e with
  | elevate h c level =>
      have hleft : p h = false := hp
      simp only [elevatedAfter]
      split
      · rfl
      · simp [hleft]
  | reset h =>
      rw [elevatedAfter, List.filter_filter]
      refine List.filter_congr fun k _ => ?_
      -- The handle that is taken out would not have been kept.
      by_cases hk : k = h
      · have hleft : p k = false := hk ▸ hp
        simp [hleft]
      · simp [hk]

/-- **The requests for some handles alone** elevate these handles, in the same order. -/
theorem elevated_filter (p : ExecHandle → Bool) (requests : List PriorityEvent) :
    (ofRequests (requests.filter fun e => p e.handle)).elevated =
      (ofRequests requests).elevated.filter p := by
  induction requests using List.reverseRecOn with
  | nil => rfl
  | append_singleton requests e ih =>
      rw [List.filter_append, ofRequests_concat, elevated_record]
      cases hp : p e.handle with
      | true =>
          rw [List.filter_cons_of_pos (by simpa using hp), List.filter_nil, ofRequests_concat,
            elevated_record, ih, elevatedAfter_filter hp]
      | false =>
          rw [List.filter_cons_of_neg (by simp [hp]), List.filter_nil, List.append_nil, ih,
            filter_elevatedAfter hp]

/-! ### What the list tells -/

/-- What the list of elevated handles tells about the log of a row of requests. -/
structure Faithful (requests : List PriorityEvent) : Prop where
  /-- The log has the requests, in their order. -/
  logged : (ofRequests requests).events = requests
  /-- No handle is listed twice. -/
  once : (ofRequests requests).elevated.Nodup
  /-- Listed are the handles whose latest request is an elevation. -/
  latest : ∀ h, h ∈ (ofRequests requests).elevated ↔
    ∃ c level, (ofRequests requests).latest? h = some (.elevate h c level)
  /-- They have risen at one place of the log each … -/
  risen : ∀ h, h ∈ (ofRequests requests).elevated ↔ ∃! i, (ofRequests requests).RisesAt h i
  /-- … and are listed in the order of these places. -/
  order : (ofRequests requests).elevated.Pairwise fun h k =>
    ∀ i j, (ofRequests requests).RisesAt h i → (ofRequests requests).RisesAt k j → i < j
  /-- The test for a single handle agrees with the list. -/
  test : ∀ h, (ofRequests requests).isElevated h = true ↔ h ∈ (ofRequests requests).elevated
  /-- Rows of requests that differ in those for one handle only elevate the same other handles, in
  the same order. -/
  apart : ∀ h other, requests.filter (·.handle ≠ h) = other.filter (·.handle ≠ h) →
    (ofRequests requests).elevated.filter (· ≠ h) = (ofRequests other).elevated.filter (· ≠ h)

/-- **The elevated handles are right after every row of requests.** -/
theorem faithful_ofRequests (requests : List PriorityEvent) : Faithful requests where
  logged := events_ofRequests requests
  once := (lists_elevated requests).nodup
  latest := by
    intro h
    rw [mem_elevated_iff, raised_iff]
  risen := by
    intro h
    rw [(lists_elevated requests).mem_iff]
    constructor
    · rintro ⟨i, hi⟩
      exact ⟨i, hi, fun j hj => hj.unique hi⟩
    · rintro ⟨i, hi, -⟩
      exact ⟨i, hi⟩
  order := (lists_elevated requests).pairwise_lt
  test := by
    intro h
    rw [isElevated, List.contains_iff_mem]
  apart := by
    intro h other heq
    rw [← elevated_filter, ← elevated_filter, heq]

/-- A handle that is reset and elevated again moves to the end; one that is elevated twice does
not. -/
example : (ofRequests [.elevate ⟨1⟩ .fifo 99, .elevate ⟨2⟩ .fifo 99, .elevate ⟨1⟩ .roundRobin 5,
    .elevate ⟨3⟩ .fifo 99, .reset ⟨2⟩, .reset ⟨4⟩, .elevate ⟨2⟩ .fifo 99]).elevated =
      [⟨1⟩, ⟨3⟩, ⟨2⟩] := by decide

end RateMonotonic.PriorityLog
