/-
**What an action does to the requests for a handle, and to the round of the loop.**

An action that is no step of the loop elevates nobody and leaves a round where it is.  A step of the
loop takes the round one step further, or begins one by granting the slot.  So whatever is elevated
is elevated by the round of one grant, and between two requests for a handle nothing happens to it.

Main definitions:
* `PriorityLog.requests` — the requests for a handle;
* `LoopState.grantee`, `LoopState.demoting`, `LoopState.undoing` — whom the loop's round grants the
  slot to, and which reset it may make next.

Main results:
* `System.requests_act` — an action elevates a handle, leaves it lowered, or does not touch it;
* `System.OneRound.round_act` — a round goes on where it is, or takes its next step;
* `System.raising_act` — **who is about to be elevated has been granted the slot**;
* `System.heldBy_act` — who holds the slot held it before, or has been granted it.
-/

import RateMonotonic.Proofs.RaisedPriority

set_option relaxedAutoImplicit false
set_option autoImplicit false

namespace RateMonotonic

/-! ### Requests for a handle -/

namespace PriorityLog

/-- The requests for a handle, oldest first. -/
def requests (log : PriorityLog) (h : ExecHandle) : List PriorityEvent :=
  log.events.filter (·.handle = h)

theorem latest?_eq (log : PriorityLog) (h : ExecHandle) :
    log.latest? h = (log.requests h).reverse.head? := by
  rw [latest?, requests, ← List.filter_reverse, List.head?_filter]

/-- Whether a handle is raised is told by the requests for it. -/
theorem raised_congr {log other : PriorityLog} {h : ExecHandle}
    (heq : log.requests h = other.requests h) : log.raised h = other.raised h := by
  rw [raised, raised, latest?_eq, latest?_eq, heq]

theorem requests_elevate_of_ne (log : PriorityLog) {k h : ExecHandle} (hne : k ≠ h)
    (c : SchedClass) (level : Int32) : (log.elevate k c level).requests h = log.requests h := by
  simp [requests, elevate, record, PriorityEvent.handle, hne]

theorem requests_reset_of_ne (log : PriorityLog) {k h : ExecHandle} (hne : k ≠ h) :
    (log.reset k).requests h = log.requests h := by
  simp [requests, reset, record, PriorityEvent.handle, hne]

/-- A reset is for another handle, or lowers this one. -/
theorem requests_reset (log : PriorityLog) (k h : ExecHandle) :
    (log.reset k).requests h = log.requests h ∨ (log.reset k).raised h = false := by
  by_cases hk : k = h
  · exact Or.inr ((raised_reset log k h).trans (if_pos hk))
  · exact Or.inl (requests_reset_of_ne log hk)

end PriorityLog

/-- A call resets a handle, or does not touch it. -/
theorem Activity.Advances.requests {s next : Scheduler} {a rest : Activity}
    (h : a.Advances s next rest) (k : ExecHandle) :
    next.dispatcher.priorities.requests k = s.dispatcher.priorities.requests k ∨
      next.dispatcher.priorities.raised k = false := by
  cases h with
  | @reset handle rest => exact PriorityLog.requests_reset _ handle k
  | _ => exact Or.inl rfl

/-! ### Rounds -/

namespace LoopState

/-- The task that the loop's round grants the slot to, with its handle. -/
def grantee : LoopState → Option (TaskId × ExecHandle)
  | .applying r => r.grantee
  | _ => none

/-- Whether the loop is about to reset a task that lost the slot. -/
def demoting (h : ExecHandle) : LoopState → Bool
  | .applying (.demote k _ _) => decide (k = h)
  | _ => false

/-- Whether the loop is to confirm the grant of a task that it has elevated, or to undo it. -/
def undoing (h : ExecHandle) : LoopState → Bool
  | .applying (.confirm _ k) => decide (k = h)
  | .applying (.undo k) => decide (k = h)
  | _ => false

end LoopState

namespace System

variable {y : System} {h : ExecHandle}

theorem elevates_iff {m : Action} :
    y.elevates h m = true ↔ m = .loop ∧ ∃ id, y.scheduler.loop = .applying (.elevate id h) := by
  constructor
  · intro he
    cases m with
    | loop =>
        refine ⟨rfl, ?_⟩
        simp only [elevates] at he
        split at he
        · next id k applying => exact ⟨id, by rw [applying, of_decide_eq_true he]⟩
        · cases he
    | _ => cases he
  · rintro ⟨rfl, id, applying⟩
    simp [elevates, applying]

/-- **An action elevates a handle, leaves it lowered, or does not touch it.** -/
theorem requests_act (hy : y.Kept) (h : ExecHandle) (m : Action) :
    y.elevates h m = true ∨ (y.act m).scheduler.dispatcher.priorities.raised h = false ∨
      (y.act m).scheduler.dispatcher.priorities.requests h =
        y.scheduler.dispatcher.priorities.requests h := by
  have hacts := acts_act hy.proper m
  generalize y.act m = next at hacts
  cases hacts with
  | stutter _ => exact Or.inr (Or.inr rfl)
  | invoke _ => exact Or.inr (Or.inr rfl)
  | advance _ ha => exact Or.inr (ha.requests h).symm
  | loop hloop =>
      cases hloop with
      | @apply q applying =>
          cases q with
          | demote preempted task handle =>
              exact Or.inr (PriorityLog.requests_reset _ preempted h).symm
          | elevate task handle =>
              by_cases hk : handle = h
              · exact Or.inl (elevates_iff.2 ⟨rfl, task, by rw [applying, hk]⟩)
              · exact Or.inr (Or.inr (PriorityLog.requests_elevate_of_ne _ hk _ _))
          | confirm task handle =>
              rw [Scheduler.step_confirm]
              exact Or.inr (Or.inr rfl)
          | undo handle => exact Or.inr (PriorityLog.requests_reset _ handle h).symm
      | _ => exact Or.inr (Or.inr rfl)
  | worker hworker => cases hworker <;> exact Or.inr (Or.inr rfl)

/-- **A round goes on where it is, or takes its next step.** -/
theorem OneRound.round_act (hr : y.OneRound) (hy : y.Kept) {r : Round}
    (applying : y.scheduler.loop = .applying r) (m : Action) :
    (m ≠ .loop ∧ (y.act m).scheduler.loop = .applying r) ∨
      (m = .loop ∧ (y.act m).scheduler = { y.scheduler with
        dispatcher := (r.step y.scheduler.dispatcher).1
        loop := Scheduler.loopAfter (r.step y.scheduler.dispatcher).2 }) := by
  have hacts := acts_act hy.proper m
  by_cases hm : m = .loop
  · subst hm
    refine Or.inr ⟨rfl, ?_⟩
    simp [System.act, Scheduler.loopStep, applying]
  · refine Or.inl ⟨hm, ?_⟩
    generalize y.act m = next at hacts
    cases hacts with
    | stutter _ => exact applying
    | invoke _ => exact applying
    | advance _ ha =>
        rcases hr.loop_of_advances ha with hloop | hl | hl
        · exact hloop.trans applying
        · rw [hl] at applying
          cases applying
        · rw [hl] at applying
          cases applying
    | loop _ => exact absurd rfl hm
    | worker hworker => cases hworker <;> exact applying

/-- Whoever is about to be elevated is granted the slot by the round. -/
theorem grantee_of_raising {l : LoopState} (hraising : l.raising h = true) :
    ∃ id, l.grantee = some (id, h) := by
  cases l with
  | applying r =>
      cases r with
      | demote preempted id k => exact ⟨id, by rw [← of_decide_eq_true hraising]; rfl⟩
      | elevate id k => exact ⟨id, by rw [← of_decide_eq_true hraising]; rfl⟩
      | _ => cases hraising
  | _ => cases hraising

/-- **Who is about to be elevated has been granted the slot** by this action, or was about to be
before. -/
theorem raising_act (hy : y.Kept) {m : Action}
    (hraising : (y.act m).scheduler.loop.raising h = true) :
    (m = .loop ∧ ∃ id, y.Grants id h ∧ (y.act m).scheduler.loop.grantee = some (id, h)) ∨
      (y.scheduler.loop.raising h = true ∧
        (y.act m).scheduler.loop.grantee = y.scheduler.loop.grantee) := by
  have hacts := acts_act hy.proper m
  generalize y.act m = next at hacts hraising
  cases hacts with
  | stutter _ => exact Or.inr ⟨hraising, rfl⟩
  | invoke _ => exact Or.inr ⟨hraising, rfl⟩
  | advance _ ha =>
      rcases ha.loop with ⟨hloop, -⟩ | ⟨-, -, hloop⟩
      · exact Or.inr ⟨hloop ▸ hraising, congrArg LoopState.grantee hloop⟩
      · rw [hloop] at hraising
        cases hraising
  | loop hloop =>
      cases hloop with
      | take _ _ =>
          simp only at hraising
          split at hraising <;> cases hraising
      | look _ =>
          simp only at hraising
          split at hraising <;> cases hraising
      | evaluate cleared =>
          obtain ⟨id, hgrantee⟩ := grantee_of_raising hraising
          refine Or.inl ⟨rfl, id, ⟨cleared, ?_⟩, hgrantee⟩
          cases hround : Round.ofDecision y.scheduler.schedule.evaluate.1 with
          | none =>
              simp only [hround] at hgrantee
              cases hgrantee
          | some r =>
              simp only [hround] at hgrantee
              exact ⟨r, rfl, hgrantee⟩
      | @apply q applying =>
          cases q with
          | demote preempted id k => exact Or.inr (by rw [applying]; exact ⟨hraising, rfl⟩)
          | elevate id k => cases hraising
          | confirm id k =>
              simp only [Scheduler.step_confirm] at hraising
              split at hraising <;> cases hraising
          | undo k => cases hraising
  | worker hworker => cases hworker <;> exact Or.inr ⟨hraising, rfl⟩

/-- Who holds the slot held it before, or has been granted it by this action. -/
theorem heldBy_act (hr : y.OneRound) (hy : y.Kept) {m : Action}
    (hheld : (y.act m).scheduler.schedule.HeldBy h) :
    y.scheduler.schedule.HeldBy h ∨ (m = .loop ∧ ∃ id, y.Grants id h) := by
  obtain ⟨id, t, hc, ht, rfl⟩ := hheld
  rcases goesOn_or_seats hr hy m with hgoes | ⟨hm, hseats⟩
  · obtain ⟨u, hc', hu, hhandle, -⟩ := hgoes id t hc ht
    exact Or.inl ⟨id, u, hc', hu, hhandle⟩
  · exact Or.inr ⟨hm, id, (hseats id t hc ht).1⟩

end System

end RateMonotonic
