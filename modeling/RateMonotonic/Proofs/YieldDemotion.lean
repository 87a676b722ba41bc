/-
**What a yield leaves of its caller's priority.**

A yield that takes its caller off the slot resets the caller's handle before it returns.  A yield of a
job that had lost the slot does not: it leaves that to the round that took the slot.  So when a yield
returns, the caller's handle can be raised for three reasons.  The slot has been granted to the caller
once more, after its job had ended; or a grant that was decided before is lost and about to be undone;
or the round that took the slot from the caller has not taken its first step since the job ended, and
the caller goes on with the priority of the slot.

Main definitions:
* `System.GrantRound`, `System.RaisedByGrant` — a handle was elevated by a grant that was decided in
  the run;
* `System.WillBeUndone` — a handle was elevated by a grant that is lost;
* `System.Explained` — why a handle can be raised after its job has ended.

Main results:
* `System.Explained.snoc` — **every action leaves a raised handle explained**;
* `System.raised_iff_of_yield` — **a yield leaves its caller raised by an earlier grant exactly when
  the round that took the slot has not gone on since**;
* `System.raised_of_overtakingYield` — a run in which it has not.
-/

import Mathlib.Data.List.Infix
import RateMonotonic.Proofs.PreemptedPriority

set_option relaxedAutoImplicit false
set_option autoImplicit false

namespace RateMonotonic

namespace System

variable {y : System} {h : ExecHandle} {id : TaskId} {i : ℕ}

/-! ### Without a step of the loop -/

/-- A round stays where it is until the loop takes a step. -/
theorem OneRound.round_after (hr : y.OneRound) (hy : y.Kept) {r : Round}
    (applying : y.scheduler.loop = .applying r) {run : List Action} (hrun : .loop ∉ run) :
    (y.after run).scheduler.loop = .applying r := by
  induction run generalizing y with
  | nil => exact applying
  | cons m run ih =>
      obtain ⟨hm, hrest⟩ := not_or.1 (mt List.mem_cons.2 hrun)
      rcases hr.round_act hy applying m with ⟨-, hstays⟩ | ⟨rfl, -⟩
      · exact ih (hr.act hy m) (hy.act m) hstays hrest
      · exact absurd rfl hm

/-- Nobody gets the slot until the loop takes a step. -/
theorem heldBy_after (hr : y.OneRound) (hy : y.Kept) {run : List Action} (hrun : .loop ∉ run)
    (hheld : (y.after run).scheduler.schedule.HeldBy h) : y.scheduler.schedule.HeldBy h := by
  induction run generalizing y with
  | nil => exact hheld
  | cons m run ih =>
      obtain ⟨hm, hrest⟩ := not_or.1 (mt List.mem_cons.2 hrun)
      rcases heldBy_act hr hy (ih (hr.act hy m) (hy.act m) hrest hheld) with hbefore | ⟨rfl, -⟩
      · exact hbefore
      · exact absurd rfl hm

/-- What a call owes it goes on to owe, until it has made the reset. -/
theorem owes_act (hy : y.Kept) {a : Activity} (ha : y.calls[i]? = some a)
    (howes : a.owes y.scheduler.registry h = true) (m : Action) :
    (∃ b, (y.act m).calls[i]? = some b ∧ b.owes (y.act m).scheduler.registry h = true) ∨
      (y.act m).scheduler.dispatcher.priorities.raised h = false := by
  have hacts := acts_act hy.proper m
  generalize y.act m = next at hacts
  cases hacts with
  | stutter _ => exact Or.inl ⟨a, ha, howes⟩
  | invoke _ =>
      obtain ⟨hi, -⟩ := List.getElem?_eq_some_iff.1 ha
      exact Or.inl ⟨a, by rw [List.getElem?_append_left hi]; exact ha, howes⟩
  | @advance _ _ _ l r b rest next hcalls hb =>
      have hother : a ∈ l ∨ a ∈ r → a.owes next.registry h = true := fun hm =>
        (hy.owes_of_other hcalls hb hm h).trans howes
      have hmem : b ∈ y.calls := by simp [hcalls]
      rw [hcalls] at ha
      rcases Nat.lt_trichotomy i l.length with hi | rfl | hi
      · rw [List.getElem?_append_left hi] at ha
        refine Or.inl ⟨a, ?_, hother (Or.inl (List.mem_of_getElem? ha))⟩
        rw [List.getElem?_append_left hi]
        exact ha
      · rw [List.getElem?_append_right (Nat.le_refl _), Nat.sub_self] at ha
        cases ha
        refine (hb.owes_or_reset (hy.fits _ hmem) howes).imp_left fun hrest => ⟨rest, ?_, hrest⟩
        rw [List.getElem?_append_right (Nat.le_refl _), Nat.sub_self]
        rfl
      · obtain ⟨n, hn⟩ : ∃ n, i - l.length = n + 1 := ⟨i - l.length - 1, by omega⟩
        rw [List.getElem?_append_right (Nat.le_of_lt hi), hn, List.getElem?_cons_succ] at ha
        refine Or.inl ⟨a, ?_, hother (Or.inr (List.mem_of_getElem? ha))⟩
        rw [List.getElem?_append_right (Nat.le_of_lt hi), hn, List.getElem?_cons_succ]
        exact ha
  | loop hloop =>
      exact Or.inl ⟨a, ha, by rw [(hloop.keeps hy.sound).registry]; exact howes⟩
  | worker hworker =>
      exact Or.inl ⟨a, ha, by rw [(hworker.keeps hy.sound).registry]; exact howes⟩

/-! ### Elevations that belong to a grant -/

/-- In a run, a step of the loop grants the slot to a task with a handle, and the round of that grant
goes on ever since. -/
structure GrantRound (y : System) (id j : TaskId) (h : ExecHandle) (before since : List Action) :
    Prop where
  /-- The loop's step after `before` grants the slot. -/
  granted : (y.after before).Grants j h
  /-- It grants the slot to the task with that handle. -/
  own : ∀ t, (y.after before).scheduler.schedule.task? id = some t → t.handle = h → j = id
  /-- The loop carries out that grant in every state from there on. -/
  round : y.Since (fun z => z.scheduler.loop.grantee = some (j, h)) before .loop since

/-- A handle was elevated by the round of a grant that was decided in the run, and nothing has been
requested for it since. -/
def RaisedByGrant (y : System) (id : TaskId) (h : ExecHandle) (run : List Action) : Prop :=
  ∃ j before more since, run = before ++ .loop :: more ++ .loop :: since ∧
    y.GrantRound id j h before more ∧
      (y.after (before ++ .loop :: more)).elevates h .loop = true ∧
        (y.after run).scheduler.dispatcher.priorities.requests h =
          (y.after (before ++ .loop :: more ++ [.loop])).scheduler.dispatcher.priorities.requests h

/-- A handle was elevated by a grant that the loop undoes: it is about to do so, or it will find the
grant lost whatever happens before. -/
def WillBeUndone (y : System) (h : ExecHandle) : Prop :=
  y.scheduler.loop = .applying (.undo h) ∨
    ∃ j, y.scheduler.loop = .applying (.confirm j h) ∧
      ∀ more, .loop ∉ more → (y.after (more ++ [.loop])).scheduler.loop = .applying (.undo h)

/-- The confirmation of a grant whose task does not hold the slot fails. -/
theorem OneRound.undo_of_confirm (hr : y.OneRound) (hy : y.Kept) {j : TaskId}
    (applying : y.scheduler.loop = .applying (.confirm j h))
    (hlost : ¬ y.scheduler.schedule.HeldBy h) :
    (y.act .loop).scheduler.loop = .applying (.undo h) := by
  rcases hr.round_act hy applying .loop with ⟨hm, -⟩ | ⟨-, hsteps⟩
  · exact absurd rfl hm
  · rw [hsteps, Scheduler.step_confirm]
    rcases hy.sound.confirm_cases j with ⟨t, hc, -, ht, -, -⟩ | ⟨-, heq⟩
    · have hgrantee := hr.granted _ applying j t hc ht
      cases hgrantee
      exact absurd ⟨j, t, hc, ht, rfl⟩ hlost
    · have hfails : (y.scheduler.dispatcher.schedule.confirm j).1 = false := congrArg Prod.fst heq
      rw [hfails]
      rfl

/-- A grant that has been lost is undone. -/
theorem OneRound.willBeUndone (hr : y.OneRound) (hy : y.Kept)
    (hundoing : y.scheduler.loop.undoing h = true) (hlost : ¬ y.scheduler.schedule.HeldBy h) :
    y.WillBeUndone h := by
  cases hl : y.scheduler.loop with
  | applying r =>
      rw [hl] at hundoing
      cases r with
      | confirm j k =>
          obtain rfl := of_decide_eq_true hundoing
          refine Or.inr ⟨j, hl, fun more hmore => ?_⟩
          rw [after_append]
          have hmayHold := mt (heldBy_after hr hy hmore) hlost
          exact (hr.after hy more).undo_of_confirm (hy.after more) (hr.round_after hy hl hmore)
            hmayHold
      | undo k => exact Or.inl (by rw [hl, of_decide_eq_true hundoing])
      | _ => cases hundoing
  | _ =>
      rw [hl] at hundoing
      cases hundoing

/-! ### Why a handle can be raised after its job has ended -/

/-- **Why a handle can be raised** after its task's job has ended and a run has followed. -/
structure Explained (y : System) (i : ℕ) (id : TaskId) (h : ExecHandle) (run : List Action) :
    Prop where
  /-- Who is about to be elevated has been granted the slot in the run, or has lost it since. -/
  raising : (y.after run).scheduler.loop.raising h = true →
    (∃ j before since, run = before ++ .loop :: since ∧ y.GrantRound id j h before since) ∨
      ¬ (y.after run).scheduler.schedule.HeldBy h
  /-- A raised handle is still to be reset by the call that ended the job, belongs to a grant of the
  run, belongs to a grant that is lost, or is to be reset by the round that took the slot before. -/
  raised : (y.after run).scheduler.dispatcher.priorities.raised h = true →
    (∃ a, (y.after run).calls[i]? = some a ∧ a.owes (y.after run).scheduler.registry h = true) ∨
      y.RaisedByGrant id h run ∨
        ((y.after run).scheduler.loop.undoing h = true ∧
          ¬ (y.after run).scheduler.schedule.HeldBy h) ∨
          (y.scheduler.loop.demoting h = true ∧ (y.after run).scheduler.loop.demoting h = true ∧
            .loop ∉ run)

/-- A handle that nobody held goes on to be held by nobody, unless the loop grants the slot. -/
theorem not_heldBy_act (hr : y.OneRound) (hy : y.Kept) (hlost : ¬ y.scheduler.schedule.HeldBy h)
    (hround : y.scheduler.loop ≠ .cleared) (m : Action) :
    ¬ (y.act m).scheduler.schedule.HeldBy h := by
  intro hheld
  rcases heldBy_act hr hy hheld with hbefore | ⟨-, j, hgrants⟩
  · exact hlost hbefore
  · exact hround hgrants.1

/-- The step of the loop that evaluates the schedule begins the round of a grant. -/
theorem grantRound_of_grants {run : List Action} {j : TaskId} (hgrants : (y.after run).Grants j h)
    (hy : (y.after run).Kept) (hdistinct : (y.after run).scheduler.schedule.DistinctHandles)
    (hgrantee : ((y.after run).act .loop).scheduler.loop.grantee = some (j, h)) :
    y.GrantRound id j h run [] where
  granted := hgrants
  own := by
    intro t ht hhandle
    obtain ⟨u, hu, hk⟩ := hgrants.recorded hy
    exact hdistinct.eq hu ht (hk.trans hhandle.symm)
  round := since_nil (by rw [after_append]; exact hgrantee)

/-- A step that leaves the loop's grantee as he is goes on with the round of his grant. -/
theorem GrantRound.snoc {j : TaskId} {before since : List Action}
    (hround : y.GrantRound id j h before since) {m : Action}
    (hgrantee : ((y.after (before ++ .loop :: since)).act m).scheduler.loop.grantee =
      (y.after (before ++ .loop :: since)).scheduler.loop.grantee) :
    y.GrantRound id j h before (since ++ [m]) where
  granted := hround.granted
  own := hround.own
  round := hround.round.snoc (by
    rw [after_append]
    exact hgrantee.trans (hround.round since (List.prefix_refl _)))

theorem RaisedByGrant.snoc {run : List Action} (hraised : y.RaisedByGrant id h run) {m : Action}
    (hsame : ((y.after run).act m).scheduler.dispatcher.priorities.requests h =
      (y.after run).scheduler.dispatcher.priorities.requests h) :
    y.RaisedByGrant id h (run ++ [m]) := by
  obtain ⟨j, before, more, since, heq, hround, helevates, hrequests⟩ := hraised
  refine ⟨j, before, more, since ++ [m], by rw [heq]; simp, hround, helevates, ?_⟩
  rw [after_append]
  exact hsame.trans hrequests

/-- The loop is not about to evaluate the schedule when it is about to elevate somebody. -/
theorem not_cleared_of_raising {l : LoopState} (hraising : l.raising h = true) : l ≠ .cleared := by
  rintro rfl
  cases hraising

/-- A grant that is lost stays so until it is undone. -/
theorem undoing_act (hr : y.OneRound) (hy : y.Kept) (hundoing : y.scheduler.loop.undoing h = true)
    (hlost : ¬ y.scheduler.schedule.HeldBy h) (m : Action) :
    ((y.act m).scheduler.loop.undoing h = true ∧ ¬ (y.act m).scheduler.schedule.HeldBy h) ∨
      (y.act m).scheduler.dispatcher.priorities.raised h = false := by
  cases hl : y.scheduler.loop with
  | applying r =>
      rw [hl] at hundoing
      have hlost' := not_heldBy_act hr hy hlost (by rw [hl]; simp) m
      rcases hr.round_act hy hl m with ⟨-, hstays⟩ | ⟨rfl, hsteps⟩
      · exact Or.inl ⟨by rw [hstays]; exact hundoing, hlost'⟩
      · cases r with
        | confirm j k =>
            obtain rfl := of_decide_eq_true hundoing
            refine Or.inl ⟨?_, hlost'⟩
            rw [hr.undo_of_confirm hy hl hlost]
            exact decide_eq_true rfl
        | undo k =>
            obtain rfl := of_decide_eq_true hundoing
            rw [hsteps]
            exact Or.inr ((PriorityLog.raised_reset _ k k).trans (if_pos rfl))
        | _ => cases hundoing
  | _ =>
      rw [hl] at hundoing
      cases hundoing

/-- **Every action leaves a raised handle explained.** -/
theorem Explained.snoc {run : List Action} (he : y.Explained i id h run)
    (hr : (y.after run).OneRound) (hy : (y.after run).Kept)
    (hdistinct : (y.after run).scheduler.schedule.DistinctHandles) (m : Action) :
    y.Explained i id h (run ++ [m]) := by
  have hnext := y.after_concat run m
  constructor
  · rw [hnext]
    intro hraising
    rcases raising_act hy hraising with ⟨rfl, j, hgrants, hgrantee⟩ | ⟨hbefore, hgrantee⟩
    · exact Or.inl ⟨j, run, [], rfl, grantRound_of_grants hgrants hy hdistinct hgrantee⟩
    · rcases he.raising hbefore with ⟨j, before, since, rfl, hround⟩ | hlost
      · exact Or.inl ⟨j, before, since ++ [m], by simp, hround.snoc hgrantee⟩
      · exact Or.inr (not_heldBy_act hr hy hlost (not_cleared_of_raising hbefore) m)
  · rw [hnext]
    intro hraised
    rcases requests_act hy h m with helevates | hlow | hsame
    · -- The elevation belongs to the round of a grant of the run, or of one that is lost.
      obtain ⟨rfl, j, applying⟩ := elevates_iff.1 helevates
      have hraising : (y.after run).scheduler.loop.raising h = true := by
        rw [applying]
        exact decide_eq_true rfl
      rcases he.raising hraising with ⟨k, before, since, rfl, hround⟩ | hlost
      · exact Or.inr (Or.inl ⟨k, before, since, [], rfl, hround, helevates, by rw [hnext]⟩)
      · have hlost' := not_heldBy_act hr hy hlost (not_cleared_of_raising hraising) .loop
        refine Or.inr (Or.inr (Or.inl ⟨?_, hlost'⟩))
        rcases hr.round_act hy applying .loop with ⟨hm, -⟩ | ⟨-, hsteps⟩
        · exact absurd rfl hm
        · rw [hsteps]
          exact decide_eq_true rfl
    · rw [hlow] at hraised
      cases hraised
    · have hstill : ∀ {P : Prop},
          P ∨ ((y.after run).act m).scheduler.dispatcher.priorities.raised h = false → P :=
        fun hp => hp.resolve_right (by rw [hraised]; simp)
      rcases he.raised ((PriorityLog.raised_congr hsame).symm.trans hraised) with
        ⟨a, ha, howes⟩ | hgrant | ⟨hundoing, hlost⟩ | ⟨hstart, hdemoting, hrun⟩
      · exact Or.inl (hstill (owes_act hy ha howes m))
      · exact Or.inr (Or.inl (hgrant.snoc hsame))
      · exact Or.inr (Or.inr (Or.inl (hstill (undoing_act hr hy hundoing hlost m))))
      · obtain ⟨hm, hloop⟩ := hstill (demoting_act hr hy hdemoting m)
        refine Or.inr (Or.inr (Or.inr ⟨hstart, by rw [hloop]; exact hdemoting, ?_⟩))
        simp [hrun, Ne.symm hm]

/-- **A raised handle stays explained** after every run in which no two tasks share a handle. -/
theorem Explained.after (he : y.Explained i id h []) (hr : y.OneRound) (hy : y.Kept)
    (run : List Action)
    (hdistinct : ∀ p, p <+: run → (y.after p).scheduler.schedule.DistinctHandles) :
    y.Explained i id h run :=
  hy.history (Q := y.Explained i id h) run he fun before m hmore hkept hbefore =>
    hbefore.snoc (hr.after hy before) hkept
      (hdistinct before ((List.prefix_append _ _).trans hmore)) m

/-! ### Yields -/

/-- In a run, a yield ends the job of a task with its section after `before`, and returns. -/
structure Yielded (y : System) (before since : List Action) (i : ℕ) (resolver : Resolver)
    (now : Instant) (id : TaskId) (x : YieldResult) : Prop where
  /-- The call is about to end the job. -/
  call : (y.after before).calls[i]? = some (.endJob id)
  /-- It ends the job: the task sleeps, or its next job is queued. -/
  ends : ∃ q, (y.after before).scheduler.schedule.endJob id now = .ok (x, q) ∧
    Scheduler.endedJob x.outcome = true
  /-- It has returned at the end of the run. -/
  returned : (y.after (before ++ .advance i resolver now :: since)).calls[i]? =
    some (.answered (.ok (.yielded id x.outcome)))

/-- What a yield promises of its caller's handle: when it has returned, the handle is not raised,
unless by a grant that was decided after the job had ended, or by one that is about to be undone. -/
def LowersCaller (y : System) (before : List Action) (m : Action) (since : List Action) (id : TaskId)
    (h : ExecHandle) : Prop :=
  (y.after (before ++ m :: since)).scheduler.dispatcher.priorities.raised h = true →
    (y.after (before ++ [m])).RaisedByGrant id h since ∨
      (y.after (before ++ m :: since)).WillBeUndone h

/-- A yield overtakes the round that took the slot from its caller: the handle is raised, the round
was to reset it when the job ended, and has not gone on since. -/
structure Overtakes (y : System) (before : List Action) (m : Action) (since : List Action)
    (h : ExecHandle) : Prop where
  /-- The handle is raised. -/
  raised : (y.after (before ++ m :: since)).scheduler.dispatcher.priorities.raised h = true
  /-- The round was to reset it. -/
  demoting : (y.after before).scheduler.loop.demoting h = true
  /-- The loop has not taken a step since. -/
  waits : .loop ∉ since

/-- The section that ends a job. -/
theorem act_endJob {resolver : Resolver} {now : Instant} {x : YieldResult} {q : Schedule}
    (hcall : y.calls[i]? = some (.endJob id))
    (hok : y.scheduler.schedule.endJob id now = .ok (x, q)) :
    y.act (.advance i resolver now) =
      ⟨y.scheduler.withSchedule q, y.calls.set i (.armNext id x)⟩ := by
  simp [System.act, hcall, Activity.step, Scheduler.endJob, hok]

/-- A yield that frees the slot owes its caller a reset; one that does not has been preempted. -/
theorem explained_of_endJob (hlow : y.PreemptedLow) {resolver : Resolver} {now : Instant}
    {x : YieldResult} {q : Schedule} (hcall : y.calls[i]? = some (.endJob id))
    (hok : y.scheduler.schedule.endJob id now = .ok (x, q))
    (hended : Scheduler.endedJob x.outcome = true) :
    (y.act (.advance i resolver now)).Explained i id x.handle [] := by
  obtain ⟨hi, -⟩ := List.getElem?_eq_some_iff.1 hcall
  rw [act_endJob hcall hok]
  have hyields := Schedule.yields_of_endJob hok
  rcases hyields.freed_or_preempted hended with hfreed | ⟨t, ht, hhandle⟩
  · have hfree := hyields.current_of_freed hfreed
    refine ⟨fun _ => Or.inr ?_, fun _ => Or.inl ⟨.armNext id x, by simp [hi], ?_⟩⟩
    · rintro ⟨j, u, hc, -⟩
      have hholder : q.current = some j := hc
      rw [hfree] at hholder
      cases hholder
    · simp [Activity.owes, hfreed]
  · obtain ⟨hraising, hraised⟩ := hlow id t ht
    rw [hhandle] at hraising hraised
    refine ⟨fun hagain => ?_, fun hk => ?_⟩
    · have hbefore : y.scheduler.loop.raising x.handle = true := hagain
      rw [hraising] at hbefore
      cases hbefore
    · exact Or.inr (Or.inr (Or.inr ⟨hraised hk, hraised hk, by simp⟩))

/-- A handle that is explained is lowered once the yield has returned, unless the round that was to
reset it when the job ended has not gone on. -/
theorem Explained.lowers {run : List Action} (he : y.Explained i id h run)
    (hr : (y.after run).OneRound) (hy : (y.after run).Kept) {x : Answer}
    (hreturned : (y.after run).calls[i]? = some (.answered x))
    (hraised : (y.after run).scheduler.dispatcher.priorities.raised h = true) :
    (y.RaisedByGrant id h run ∨ (y.after run).WillBeUndone h) ∨
      (y.scheduler.loop.demoting h = true ∧ .loop ∉ run) := by
  rcases he.raised hraised with ⟨a, ha, howes⟩ | hgrant | ⟨hundoing, hlost⟩ | ⟨hstart, -, hrun⟩
  · rw [hreturned] at ha
    cases ha
    cases howes
  · exact Or.inl (Or.inl hgrant)
  · exact Or.inl (Or.inr (hr.willBeUndone hy hundoing hlost))
  · exact Or.inr ⟨hstart, hrun⟩

/-- A round that is to reset a task stays there until the loop takes a step, so it undoes nothing. -/
theorem not_willBeUndone (hr : y.OneRound) (hy : y.Kept)
    (hdemoting : y.scheduler.loop.demoting h = true) {run : List Action} (hrun : .loop ∉ run) :
    ¬ (y.after run).WillBeUndone h := by
  cases hl : y.scheduler.loop with
  | applying r =>
      rw [hl] at hdemoting
      have hstays := hr.round_after hy hl hrun
      cases r with
      | demote k j g =>
          rintro (hloop | ⟨_, hloop, -⟩)
          · rw [hstays] at hloop
            cases hloop
          · rw [hstays] at hloop
            cases hloop
      | _ => cases hdemoting
  | _ =>
      rw [hl] at hdemoting
      cases hdemoting

/-- **A yield has lowered its caller when it returns, unless it has overtaken the round that took the
slot from it**, and then it has not. -/
theorem lowersCaller_iff {c : Config} {s : Scheduler} (hs : Scheduler.new c = .ok s)
    {before since : List Action} {resolver : Resolver} {now : Instant} {x : YieldResult}
    (hyielded : (idle s).Yielded before since i resolver now id x)
    (hdistinct : ∀ p, p <+: before ++ .advance i resolver now :: since →
      ((idle s).after p).scheduler.schedule.DistinctHandles) :
    (idle s).LowersCaller before (.advance i resolver now) since id x.handle ↔
      ¬ (idle s).Overtakes before (.advance i resolver now) since x.handle := by
  obtain ⟨-, rfl⟩ := Scheduler.new_eq_ok hs
  obtain ⟨q, hok, hended⟩ := hyielded.ends
  have hreturned := hyielded.returned
  have hmiddle := after_middle (idle (Scheduler.ofConfig c)) before (.advance i resolver now)
  have hstart := after_append (idle (Scheduler.ofConfig c)) before [.advance i resolver now]
  have hkept := kept_idle c
  have hone := oneRound_idle c
  constructor
  · rintro hlowers ⟨hraised, hdemoting, hwaits⟩
    rcases hlowers hraised with ⟨j, more, rest, later, heq, -⟩ | hundone
    · exact hwaits (by rw [heq]; simp)
    · rw [after_append] at hundone
      exact not_willBeUndone (hone.after hkept before) (hkept.after before) hdemoting
        (by simpa using hwaits) hundone
  · intro hnot hraised
    -- The yield's section explains what is raised, and so does every action after it.
    have hlow : ((idle (Scheduler.ofConfig c)).after before).PreemptedLow :=
      preemptedLow_after c before fun p hp => hdistinct p (hp.trans (List.prefix_append _ _))
    have hfirst : ((idle (Scheduler.ofConfig c)).after
        (before ++ [.advance i resolver now])).Explained i id x.handle [] := by
      rw [hstart]
      exact explained_of_endJob hlow hyielded.call hok hended
    have hexplained := hfirst.after (hone.after hkept _) (hkept.after _) since fun p hp => by
      rw [← hmiddle]
      exact hdistinct _ (by simpa using hp)
    have hafter := hraised
    rw [hmiddle] at hafter hreturned
    rcases hexplained.lowers ((hone.after hkept _).after (hkept.after _) since)
      ((hkept.after _).after since) hreturned hafter with hlowered | ⟨hdemoting, hwaits⟩
    · rwa [← hmiddle since] at hlowered
    · rw [hstart, after_cons, after_nil, act_endJob hyielded.call hok] at hdemoting
      exact absurd ⟨hraised, hdemoting, hwaits⟩ hnot

/-- A scheduler that nobody has called yet. -/
def uncalled : System := idle (Scheduler.ofConfig Config.default)

/-- Every task has the handle of its own number. -/
def byNumber : Resolver := fun id => some ⟨id.number⟩

/-- A task loses the slot to another, and is about to end its job; the loop has not reset it yet. -/
def preempting : List Action :=
  .invoke (.register ⟨⟨1⟩, Duration.ofMillis 100, Duration.ofMillis 1⟩) ::
    sections 0 4 Instant.start ++
  .invoke (.register ⟨⟨2⟩, Duration.ofMillis 50, Duration.ofMillis 1⟩) ::
    sections 1 4 Instant.start ++
  .invoke .start :: sections 2 3 Instant.start ++
  .invoke (.release ⟨1⟩) :: sections 3 2 Instant.start ++ List.replicate 5 .loop ++
  .invoke (.release ⟨2⟩) :: sections 4 2 Instant.start ++ List.replicate 3 .loop ++
  .invoke (.beginYield ⟨1⟩) :: sections 5 1 Instant.start

/-- The task does not hold the slot, and sleeps until its boundary. -/
def preemptedYield : YieldResult :=
  ⟨.sleeping (Duration.ofMillis 100), ⟨1⟩, some ⟨10 ^ 8, by decide, by decide⟩, false⟩

/-- The loop resets the task before its yield returns. -/
def promptDemotion : List Action := .loop :: sections 5 2 Instant.start

/-- The yield returns before the loop goes on. -/
def lateDemotion : List Action := sections 5 2 Instant.start

theorem lowersCaller_of_promptDemotion :
    uncalled.Yielded preempting promptDemotion 5 byNumber Instant.start ⟨1⟩ preemptedYield ∧
      (∀ p, p <+: preempting ++ .advance 5 byNumber Instant.start :: promptDemotion →
        (uncalled.after p).scheduler.schedule.DistinctHandles) ∧
      uncalled.LowersCaller preempting (.advance 5 byNumber Instant.start) promptDemotion ⟨1⟩ ⟨1⟩ := by
  have hyielded :
      uncalled.Yielded preempting promptDemotion 5 byNumber Instant.start ⟨1⟩ preemptedYield :=
    ⟨rfl, ⟨_, rfl, rfl⟩, rfl⟩
  have hdistinct : ∀ p ∈ (preempting ++ .advance 5 byNumber Instant.start :: promptDemotion).inits,
      (uncalled.after p).scheduler.schedule.DistinctHandles := by decide
  have hprefix : ∀ p, p <+: preempting ++ .advance 5 byNumber Instant.start :: promptDemotion →
      (uncalled.after p).scheduler.schedule.DistinctHandles := fun p hp =>
    hdistinct p ((List.mem_inits _ _).2 hp)
  refine ⟨hyielded, hprefix, ?_⟩
  refine (lowersCaller_iff (c := Config.default) rfl hyielded hprefix).2 fun hovertakes => ?_
  exact hovertakes.waits (by simp [promptDemotion])

/-- **A preempted task that yields before the loop has reset it goes on with the priority of the
slot.** -/
theorem not_lowersCaller_of_lateDemotion :
    uncalled.Yielded preempting lateDemotion 5 byNumber Instant.start ⟨1⟩ preemptedYield ∧
      (∀ p, p <+: preempting ++ .advance 5 byNumber Instant.start :: lateDemotion →
        (uncalled.after p).scheduler.schedule.DistinctHandles) ∧
      (uncalled.after (preempting ++
        .advance 5 byNumber Instant.start :: lateDemotion)).scheduler.dispatcher.priorities.latest?
          ⟨1⟩ = some (.elevate ⟨1⟩ .fifo 99) ∧
      ¬ uncalled.LowersCaller preempting (.advance 5 byNumber Instant.start) lateDemotion ⟨1⟩ ⟨1⟩ := by
  have hyielded :
      uncalled.Yielded preempting lateDemotion 5 byNumber Instant.start ⟨1⟩ preemptedYield :=
    ⟨rfl, ⟨_, rfl, rfl⟩, rfl⟩
  have hdistinct : ∀ p ∈ (preempting ++ .advance 5 byNumber Instant.start :: lateDemotion).inits,
      (uncalled.after p).scheduler.schedule.DistinctHandles := by decide
  have hloop : (uncalled.after (preempting ++
      .advance 5 byNumber Instant.start :: lateDemotion)).scheduler.loop =
        .applying (.demote ⟨1⟩ ⟨2⟩ ⟨2⟩) := by decide
  refine ⟨hyielded, fun p hp => hdistinct p ((List.mem_inits _ _).2 hp), by decide,
    fun hlowers => ?_⟩
  rcases hlowers (by decide) with ⟨j, before, more, since, heq, -⟩ | hundone | ⟨j, hconfirm, -⟩
  · have hmem : .loop ∈ lateDemotion := by
      rw [heq]
      simp
    simp [lateDemotion, sections] at hmem
  · rw [hloop] at hundone
    cases hundone
  · rw [hloop] at hconfirm
    cases hconfirm

end System

end RateMonotonic
