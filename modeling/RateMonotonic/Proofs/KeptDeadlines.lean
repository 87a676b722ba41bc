/-
**Timers are a map of deadlines.**

Seen from outside, timers with their agenda, its stale armings and its pruning are nothing but a map of
deadlines: the same keys are pending with the same deadlines and numbers, and every event is answered
alike.  This holds as long as the numbers of the timers have not gone round.

Main definitions:
* `TimerSystem.Mirrors` — timers that agree with a map;
* `TimerSystem.firings` — the numbers of the armings that fire;
* `TimerSystem.KeepsDeadlines` — what can be relied on after a run.

Main results:
* `TimerSystem.Mirrors.next?_eq` — the next timer is the earliest of the map;
* `TimerSystem.Mirrors.act`, `TimerSystem.Mirrors.after` — **every event keeps timers and map in
  agreement**;
* `TimerSystem.Mirrors.nodup_firings` — no arming fires twice;
* `TimerSystem.fires_iff`, `TimerSystem.silent_iff` — what a turn of the worker fires;
* `TimerSystem.keepsDeadlines_after` — **timers keep the deadlines of a map**.
-/

import Mathlib.Data.List.Nodup
import RateMonotonic.Proofs.DeadlineMap
import RateMonotonic.Proofs.TimerAgenda

set_option relaxedAutoImplicit false
set_option autoImplicit false

namespace RateMonotonic

variable {κ : Type} [DecidableEq κ]

/-- Numbers below the capacity keep their identity. -/
theorem ofNat_inj {i j : ℕ} (hi : i < 2 ^ 64) (hj : j < 2 ^ 64)
    (h : UInt64.ofNat i = UInt64.ofNat j) : i = j := by
  rw [← UInt64.toNat_ofNat_of_lt' hi, h, UInt64.toNat_ofNat_of_lt' hj]

namespace TimerSystem

variable {s : TimerSystem κ} {m : DeadlineMap κ}

/-! ### Agreement -/

/-- **Timers that agree with a map**: the same keys are pending, with the same deadlines and numbers. -/
structure Mirrors (s : TimerSystem κ) (m : DeadlineMap κ) : Prop where
  tidy : s.timers.Tidy
  numbered : m.Numbered
  pending : ∀ key, s.timers.pending.get? key =
    (m.pending.get? key).map fun v => (v.1, UInt64.ofNat v.2)
  next : s.timers.nextNumber = UInt64.ofNat m.armings
  running : s.timers.inFlight = m.running
  closed : s.timers.closed = m.closed

theorem mirrors_empty : (empty : TimerSystem κ).Mirrors DeadlineMap.empty :=
  ⟨Timers.tidy_empty, DeadlineMap.numbered_empty, fun _ => rfl, rfl, rfl, rfl⟩

theorem Mirrors.isArmed_eq (h : s.Mirrors m) (key : κ) :
    s.timers.isArmed key = m.pending.contains key := by
  simp [Timers.isArmed, Table.contains, h.pending key]

/-- **The next timer is the earliest of the map**, while the numbers have not gone round. -/
theorem Mirrors.next?_eq (h : s.Mirrors m) (hm : m.armings ≤ 2 ^ 64) :
    s.timers.next?.map (fun a => (a.key, a.deadline)) =
      m.earliest?.map fun x => (x.1, x.2.1) := by
  cases hnext : s.timers.next? with
  | none =>
      have hnone : m.earliest? = none := by
        rw [DeadlineMap.earliest?_eq_none_iff]
        intro key
        have hkey := h.pending key
        rw [h.tidy.next?_eq_none_iff.1 hnext key] at hkey
        exact Option.map_eq_none_iff.1 hkey.symm
      rw [hnone]
      rfl
  | some a =>
      obtain ⟨hforce, hleast⟩ := h.tidy.next?_eq_some hnext
      rw [h.pending] at hforce
      obtain ⟨⟨d, n⟩, hpending, heq⟩ := Option.map_eq_some_iff.1 hforce
      obtain ⟨rfl, hnumber⟩ := Prod.mk.inj heq
      -- Numbers below the capacity are compared as they were given out.
      have hnum : ∀ k, k < m.armings → (UInt64.ofNat k).toNat = k := fun k hk =>
        UInt64.toNat_ofNat_of_lt' (Nat.lt_of_lt_of_le hk hm)
      have hsome : m.earliest? = some (a.key, a.deadline, n) := by
        refine h.numbered.earliest?_eq_some_iff.2 ⟨hpending, fun other e k hk => ?_⟩
        have hother : s.timers.pending.get? other = some (e, UInt64.ofNat k) := by
          rw [h.pending, hk]
          rfl
        have hle := hleast other _ hother
        rw [Arming.rank, Arming.rank, Prod.Lex.toLex_le_toLex, ← Instant.ext_iff, ← hnumber,
          hnum n (h.numbered.below _ _ _ hpending), hnum k (h.numbered.below _ _ _ hk)] at hle
        exact hle
      rw [hsome]
      rfl

/-- The next timer is the pending one with the least deadline and number. -/
theorem Mirrors.next?_eq_some_iff (h : s.Mirrors m) (hm : m.armings ≤ 2 ^ 64) {key : κ}
    {d : Instant} {n : UInt64} :
    s.timers.next? = some ⟨d, n, key⟩ ↔
      s.timers.pending.get? key = some (d, n) ∧
        ∀ other e k, s.timers.pending.get? other = some (e, k) → d < e ∨ (d = e ∧ n ≤ k) := by
  have hrank : ∀ (e : Instant) (k : UInt64) (other : κ),
      (⟨d, n, key⟩ : Arming κ).rank ≤ (⟨e, k, other⟩ : Arming κ).rank ↔
        d < e ∨ (d = e ∧ n ≤ k) := by
    intro e k other
    rw [Arming.rank, Arming.rank, Prod.Lex.toLex_le_toLex, ← Instant.ext_iff]
    rfl
  constructor
  · intro hnext
    obtain ⟨hpending, hleast⟩ := h.tidy.next?_eq_some hnext
    exact ⟨hpending, fun other e k hk => (hrank e k other).1 (hleast other (e, k) hk)⟩
  · rintro ⟨hpending, hleast⟩
    cases hnext : s.timers.next? with
    | none =>
        rw [h.tidy.next?_eq_none_iff.1 hnext key] at hpending
        cases hpending
    | some a =>
        -- Two least timers have the same number, and a number belongs to one key.
        obtain ⟨hforce, hmin⟩ := h.tidy.next?_eq_some hnext
        have hle := hmin key (d, n) hpending
        have hge := (hrank _ _ a.key).2 (hleast a.key _ _ hforce)
        have heq : toLex (a.deadline.nanos, a.number.toNat) = toLex (d.nanos, n.toNat) :=
          le_antisymm hle hge
        obtain ⟨hd, hn⟩ := Prod.mk.inj (toLex_inj.1 heq)
        rw [Instant.ext hd, UInt64.toNat_inj.1 hn] at hforce
        rw [h.pending] at hpending hforce
        obtain ⟨⟨e, i⟩, hi, hei⟩ := Option.map_eq_some_iff.1 hpending
        obtain ⟨⟨f, j⟩, hj, hfj⟩ := Option.map_eq_some_iff.1 hforce
        obtain ⟨rfl, hin⟩ := Prod.mk.inj hei
        obtain ⟨rfl, hjn⟩ := Prod.mk.inj hfj
        have hij : i = j := ofNat_inj (Nat.lt_of_lt_of_le (h.numbered.below _ _ _ hi) hm)
          (Nat.lt_of_lt_of_le (h.numbered.below _ _ _ hj) hm) (hin.trans hjn.symm)
        subst hij
        have hkey : a.key = key := h.numbered.distinct _ _ _ _ _ hj hi
        rw [← Instant.ext hd, ← UInt64.toNat_inj.1 hn, ← hkey]

/-- What a turn takes is what is due in the map. -/
theorem Mirrors.turn_eq (h : s.Mirrors m) (hm : m.armings ≤ 2 ^ 64) (now : Instant) :
    (s.turn now).1 = (m.due? now).map Prod.fst := by
  have hnext := h.next?_eq hm
  rw [turn_fst h.tidy, DeadlineMap.due?]
  cases hx : m.earliest? with
  | none =>
      rw [hx, Option.map_none, Option.map_eq_none_iff] at hnext
      rw [hnext]
      rfl
  | some x =>
      rw [hx, Option.map_some] at hnext
      obtain ⟨a, ha, heq⟩ := Option.map_eq_some_iff.1 hnext
      obtain ⟨hkey, hd⟩ := Prod.mk.inj heq
      rw [ha]
      by_cases hdue : a.deadline ≤ now
      · simp [Option.filter, ← hd, hkey, hdue]
      · simp [Option.filter, ← hd, hdue]

theorem Mirrors.reply_eq (h : s.Mirrors m) (hm : m.armings ≤ 2 ^ 64) (e : TimerEvent κ) :
    s.reply e = m.reply e := by
  have hrunning : s.running = m.running.isSome := by rw [TimerSystem.running, h.running]
  cases e with
  | cancel key => simp only [reply, DeadlineMap.reply, h.isArmed_eq]
  | cancelWithin key => simp only [reply, DeadlineMap.reply, h.isArmed_eq, hrunning]
  | turn now => simp only [reply, DeadlineMap.reply, h.turn_eq hm]
  | _ => rfl

/-! ### Events -/

theorem Mirrors.arm (h : s.Mirrors m) (key : κ) (d : Instant) :
    Mirrors { s with timers := s.timers.arm key d } (m.arm key d) := by
  have htidy := h.tidy.arm key d
  have hnumbered := h.numbered.arm key d
  cases hclosed : m.closed with
  | true =>
      rw [Timers.arm_of_shutdown (h.closed.trans hclosed)]
      simpa only [DeadlineMap.arm, hclosed, if_true] using h
  | false =>
      refine ⟨htidy, hnumbered, fun k => ?_, ?_, ?_, ?_⟩
      all_goals simp only [Timers.arm, DeadlineMap.arm, h.closed, hclosed, Bool.false_eq_true, if_false]
      · rw [Table.get?_insert, Table.get?_insert, h.next]
        split
        · rfl
        · exact h.pending k
      · rw [h.next, UInt64.ofNat_add]
        rfl
      · exact h.running

theorem Mirrors.pending_cancel (h : s.Mirrors m) (key other : κ) :
    (s.timers.pending.erase key).get? other =
      ((m.pending.erase key).get? other).map fun v => (v.1, UInt64.ofNat v.2) := by
  rw [Table.get?_erase, Table.get?_erase, h.pending]
  split <;> rfl

theorem Mirrors.cancel (h : s.Mirrors m) (key : κ) (l : List (Cancellation κ)) :
    Mirrors ⟨s.timers.cancel key, l⟩ (m.cancel key) :=
  ⟨h.tidy.cancel key, h.numbered.act (.cancel key), h.pending_cancel key, h.next, h.running,
    h.closed⟩

/-- **Every event keeps timers and map in agreement.** -/
theorem Mirrors.act (h : s.Mirrors m) (hm : m.armings ≤ 2 ^ 64) (e : TimerEvent κ) :
    (s.act e).Mirrors (m.act e) := by
  have hrunning : s.running = m.running.isSome := by rw [TimerSystem.running, h.running]
  cases e with
  | arm key d => exact h.arm key d
  | cancel key => exact h.cancel key _
  | recheck i => exact ⟨h.tidy, h.numbered, h.pending, h.next, h.running, h.closed⟩
  | armWithin key d =>
      simp only [TimerSystem.act, DeadlineMap.act, hrunning]
      split
      · exact h.arm key d
      · exact h
  | cancelWithin key =>
      simp only [TimerSystem.act, DeadlineMap.act, hrunning]
      split
      · exact h.cancel key _
      · exact h
  | turn now =>
      have hturn := h.turn_eq hm now
      have htidy := tidy_act h.tidy (.turn now)
      have hnumbered := h.numbered.act (.turn now)
      cases hdue : m.due? now with
      | none =>
          rw [hdue, Option.map_none] at hturn
          obtain ⟨agenda, hpoll⟩ := Timers.poll_of_none hturn
          simp only [DeadlineMap.act, hdue] at hnumbered ⊢
          simp only [TimerSystem.act, turn, hpoll] at htidy ⊢
          exact ⟨htidy, hnumbered, h.pending, h.next, rfl, h.closed⟩
      | some x =>
          rw [hdue, Option.map_some] at hturn
          have hpoll := Timers.poll_of_some hturn
          simp only [DeadlineMap.act, hdue] at hnumbered ⊢
          simp only [TimerSystem.act, turn, hpoll] at htidy ⊢
          exact ⟨htidy, hnumbered, h.pending_cancel x.1, h.next, rfl, h.closed⟩
  | shutdown =>
      exact ⟨Timers.tidy_shutdown _, h.numbered.act .shutdown, fun _ => rfl, h.next, h.running, rfl⟩

/-- **Timers and map agree after every run**, while the numbers have not gone round. -/
theorem Mirrors.after (h : s.Mirrors m) {run : List (TimerEvent κ)}
    (hfew : m.armings + run.countP TimerEvent.isArming < 2 ^ 64) :
    (s.after run).Mirrors (m.after run) := by
  induction run using List.reverseRecOn with
  | nil => exact h
  | append_singleton run e ih =>
      rw [List.countP_append] at hfew
      have hsome := (m.armings_after_le run).2
      rw [after_concat, DeadlineMap.after_concat]
      exact (ih (by omega)).act (by omega) e

/-! ### Firings -/

/-- The number of the arming that a turn takes. -/
def taken? (s : TimerSystem κ) (now : Instant) : Option UInt64 :=
  ((s.turn now).1.bind s.timers.pending.get?).map Prod.snd

/-- The numbers of the armings that fire in a run, in order. -/
def firings (s : TimerSystem κ) : List (TimerEvent κ) → List UInt64
  | [] => []
  | .turn now :: run => (s.taken? now).toList ++ (s.act (.turn now)).firings run
  | e :: run => (s.act e).firings run

theorem Mirrors.taken?_eq (h : s.Mirrors m) (hm : m.armings ≤ 2 ^ 64) (now : Instant) :
    s.taken? now = (m.due? now).map fun x => UInt64.ofNat x.2.2 := by
  rw [taken?, h.turn_eq hm]
  cases hdue : m.due? now with
  | none => rfl
  | some x =>
      have hx :=
        (h.numbered.earliest?_eq_some_iff.1 (DeadlineMap.due?_eq_some_iff.1 hdue).1).1
      simp [h.pending x.1, hx]

theorem Mirrors.firings_eq (h : s.Mirrors m) {run : List (TimerEvent κ)}
    (hfew : m.armings + run.countP TimerEvent.isArming < 2 ^ 64) :
    s.firings run = (m.firings run).map UInt64.ofNat := by
  induction run generalizing s m with
  | nil => rfl
  | cons e run ih =>
      have hact := m.armings_act_le e
      rw [List.countP_cons] at hfew
      have hrest := ih (h.act (by omega) e) (by omega)
      cases e with
      | turn now =>
          rw [firings, DeadlineMap.firings, h.taken?_eq (by omega), hrest, List.map_append]
          cases m.due? now <;> rfl
      | _ => exact hrest

/-- **No arming fires twice**, while the numbers have not gone round. -/
theorem Mirrors.nodup_firings (h : s.Mirrors m) {run : List (TimerEvent κ)}
    (hfew : m.armings + run.countP TimerEvent.isArming < 2 ^ 64) : (s.firings run).Nodup := by
  rw [h.firings_eq hfew]
  have hbound := (m.armings_after_le run).2
  refine List.Nodup.map_on (fun a ha b hb hab => ?_) (h.numbered.firings run).1
  have hlt := h.numbered.lt_of_mem_firings ha
  have hlt' := h.numbered.lt_of_mem_firings hb
  exact ofNat_inj (by omega) (by omega) hab

/-! ### Turns -/

/-- **What fires is the next timer**, if it is due. -/
theorem fires_iff (h : s.timers.Tidy) {now : Instant} {key : κ} :
    s.reply (.turn now) = .fired (some key) ↔
      ∃ d n, s.timers.next? = some ⟨d, n, key⟩ ∧ d ≤ now := by
  have hturn : s.reply (.turn now) = .fired (some key) ↔
      (s.timers.next?.filter fun a => a.deadline ≤ now).map (·.key) = some key := by
    rw [← turn_fst h]
    exact ⟨TimerReply.fired.inj, congrArg TimerReply.fired⟩
  rw [hturn, Option.map_eq_some_iff]
  constructor
  · rintro ⟨⟨d, n, k⟩, ha, rfl⟩
    obtain ⟨hnext, hdue⟩ := Option.filter_eq_some_iff.1 ha
    exact ⟨d, n, hnext, of_decide_eq_true hdue⟩
  · rintro ⟨d, n, hnext, hdue⟩
    exact ⟨⟨d, n, key⟩, Option.filter_eq_some_iff.2 ⟨hnext, decide_eq_true hdue⟩, rfl⟩

/-- **Nothing fires** exactly when no pending timer is due. -/
theorem silent_iff (h : s.timers.Tidy) {now : Instant} :
    s.reply (.turn now) = .fired none ↔
      ∀ key d, s.timers.deadline? key = some d → now < d := by
  constructor
  · intro hnone
    exact (h.finish.poll_eq_none (TimerReply.fired.inj hnone)).2
  · intro hlate
    cases hturn : (s.turn now).1 with
    | none => exact congrArg TimerReply.fired hturn
    | some key =>
        obtain ⟨d, hd, hle⟩ := deadline?_of_fired (congrArg TimerReply.fired hturn)
        exact absurd hle (Int.not_le.2 (hlate key d hd))

/-! ### What can be relied on -/

/-- **What can be relied on after a run**: the timers are a map of deadlines. -/
structure KeepsDeadlines (run : List (TimerEvent κ)) : Prop where
  /-- The pending timers are those of the map. -/
  pending : ∀ key, (empty.after run).timers.pending.get? key =
    ((DeadlineMap.empty.after run).pending.get? key).map fun v => (v.1, UInt64.ofNat v.2)
  /-- Every event is answered as the map answers it. -/
  replies : ∀ e, (empty.after run).reply e = (DeadlineMap.empty.after run).reply e
  /-- A key is pending as it was last armed. -/
  latest : ∀ key d, (empty.after run).timers.deadline? key = some d ↔
    ∃ before e since, run = before ++ e :: since ∧
      (empty.after before).touch key e = some (some d) ∧
        (empty.after (before ++ [e])).Untouched key since
  /-- The next timer is the pending one with the least deadline and number. -/
  next : ∀ key d n, (empty.after run).timers.next? = some ⟨d, n, key⟩ ↔
    (empty.after run).timers.pending.get? key = some (d, n) ∧
      ∀ other e k, (empty.after run).timers.pending.get? other = some (e, k) →
        d < e ∨ (d = e ∧ n ≤ k)
  /-- There is no next timer exactly when none is pending. -/
  idle : (empty.after run).timers.next? = none ↔
    ∀ key, (empty.after run).timers.deadline? key = none
  /-- A pending timer stands on the agenda. -/
  listed : ∀ key d n, (empty.after run).timers.pending.get? key = some (d, n) →
    ⟨d, n, key⟩ ∈ (empty.after run).timers.agenda
  /-- What fires is the next timer, if it is due. -/
  fires : ∀ now key, (empty.after run).reply (.turn now) = .fired (some key) ↔
    ∃ d n, (empty.after run).timers.next? = some ⟨d, n, key⟩ ∧ d ≤ now
  /-- Nothing fires exactly when no pending timer is due. -/
  silent : ∀ now, (empty.after run).reply (.turn now) = .fired none ↔
    ∀ key d, (empty.after run).timers.deadline? key = some d → now < d
  /-- What fires was armed with a deadline that has come, and nothing has happened to it since. -/
  onTime : ∀ now key, (empty.after run).reply (.turn now) = .fired (some key) →
    ∃ before e since d, run = before ++ e :: since ∧
      (empty.after before).touch key e = some (some d) ∧
        (empty.after (before ++ [e])).Untouched key since ∧ d ≤ now
  /-- No arming fires twice. -/
  once : (empty.firings run).Nodup
  /-- A cancellation learns whether a timer was pending. -/
  cancels : ∀ e key, e = .cancel key ∨ (e = .cancelWithin key ∧ (empty.after run).running = true) →
    ((empty.after run).reply e = .removed true ↔
      ∃ d, (empty.after run).timers.deadline? key = some d)
  /-- After the shutdown nothing is pending, nothing is armed and nothing fires. -/
  shut : .shutdown ∈ run → ∀ key, (empty.after run).timers.deadline? key = none ∧
    (∀ d, (empty.after run).timers.arm key d = (empty.after run).timers) ∧
      ∀ now, (empty.after run).reply (.turn now) = .fired none

/-- **Timers keep the deadlines of a map**, in every run with fewer armings than there are numbers. -/
theorem keepsDeadlines_after (run : List (TimerEvent κ))
    (hfew : run.countP TimerEvent.isArming < 2 ^ 64) : KeepsDeadlines run := by
  have hcount : (DeadlineMap.empty : DeadlineMap κ).armings + run.countP TimerEvent.isArming <
      2 ^ 64 := by simpa [DeadlineMap.empty] using hfew
  have hm := mirrors_empty.after hcount
  have hfewer : (DeadlineMap.empty.after run).armings ≤ 2 ^ 64 :=
    Nat.le_of_lt (Nat.lt_of_le_of_lt (DeadlineMap.empty.armings_after_le run).2 hcount)
  have hlatest : ∀ key d, (empty.after run).timers.deadline? key = some d ↔
      ∃ before e since, run = before ++ e :: since ∧
        (empty.after before).touch key e = some (some d) ∧
          (empty.after (before ++ [e])).Untouched key since := by
    intro key d
    rw [deadline?_after_iff Timers.tidy_empty]
    exact or_iff_right fun hbefore => by cases hbefore.1
  exact
    { pending := hm.pending
      replies := hm.reply_eq hfewer
      latest := hlatest
      next := fun key d n => hm.next?_eq_some_iff hfewer
      idle := by
        rw [hm.tidy.next?_eq_none_iff]
        exact forall_congr' fun key => Option.map_eq_none_iff.symm
      listed := fun key d n hv => hm.tidy.listed key (d, n) hv
      fires := fun now key => fires_iff hm.tidy
      silent := fun now => silent_iff hm.tidy
      onTime := by
        intro now key hfired
        obtain ⟨d, hd, hdue⟩ := deadline?_of_fired hfired
        obtain ⟨before, e, since, hrun⟩ := (hlatest key d).1 hd
        exact ⟨before, e, since, d, hrun.1, hrun.2.1, hrun.2.2, hdue⟩
      once := mirrors_empty.nodup_firings hcount
      cancels := by
        intro e key he
        rw [← Timers.isArmed_iff]
        rcases he with rfl | ⟨rfl, hrunning⟩
        · simp [reply]
        · simp [reply, hrunning]
      shut := by
        intro hshut key
        have hclosed := closed_after (s := empty) hshut
        have hnone : ∀ k, (empty.after run).timers.deadline? k = none := fun k =>
          Option.map_eq_none_iff.2 (hm.tidy.shut hclosed k)
        refine ⟨hnone key, fun d => Timers.arm_of_shutdown hclosed key d, fun now => ?_⟩
        refine (silent_iff hm.tidy).2 fun k d hd => ?_
        rw [hnone k] at hd
        cases hd }

/-- A key is armed anew, another one fires and is armed by its own callback, and a third one is armed
and cancelled. -/
def rearming : List (TimerEvent ℕ) :=
  let instant (nanos : ℤ) : Instant := (Instant.ofNanos? nanos).getD Instant.start
  let soon := instant 10
  let later := instant 20
  let latest := instant 30
  [.arm 1 latest, .arm 2 soon, .arm 1 soon, .turn soon, .armWithin 2 later, .arm 3 soon, .cancel 3]

/-- Two armings on the agenda are stale, one of them before a timer that is pending. -/
theorem keepsDeadlines_after_rearming :
    rearming.countP TimerEvent.isArming < 2 ^ 64 ∧ KeepsDeadlines rearming ∧
      (empty.after rearming).timers.agenda.map (·.key) = [1, 3, 2, 1] ∧
        (empty.after rearming).timers.pending.pairs.map (fun x => (x.1, x.2.1.nanos, x.2.2)) =
          [(1, 10, 2), (2, 20, 3)] ∧
          empty.firings rearming = [1] :=
  ⟨by decide, keepsDeadlines_after rearming (by decide), by decide, by decide, by decide⟩

end TimerSystem

end RateMonotonic
