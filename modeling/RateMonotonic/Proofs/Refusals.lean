/-
**A refused call leaves no trace.**

A registration can be turned away at five points, and a deregistration and a yield look their task
up once more when they are inside.  What a call has found out inside the registry stays true until
it leaves, so whatever can still turn it away comes before anything that it changes: up to there a
call has done nothing but take hold of the registry, and from there on it is answered in the
positive.

Main definitions:
* `Question`, `Scheduler.ask`, `Scheduler.finding` — a question about the registered tasks, asked by
  somebody who enters the registry and leaves it again, and its answer;
* `Activity.refusable`, `Activity.accepted` — the calls that can still be turned away, and those
  that cannot;
* `System.Untouched` — in a run, the sections of a call have changed nothing but who is inside the
  registry;
* `System.LeavesNoTrace` — what refused calls and questions change.

Main results:
* `Activity.refused_or_accepted` — **a section changes something only when its call can be turned
  away no more**;
* `Scheduler.perform_of_error` — a refused operation leaves every scheduler as it was;
* `System.leavesNoTrace_after` — **no refused call has changed anything**, whatever ran between its
  sections.
-/

import RateMonotonic.Proofs.System

set_option relaxedAutoImplicit false
set_option autoImplicit false

namespace RateMonotonic

/-! ### Questions -/

/-- A question about the registered tasks. -/
inductive Question where
  /-- What was this task registered with? -/
  | find (id : TaskId)
  /-- What were the tasks registered with? -/
  | snapshot
  /-- What do the tasks take together? -/
  | utilization
deriving DecidableEq, Repr

/-- The answer to a question. -/
inductive Finding where
  | task (t : TaskInfo)
  | tasks (ts : List TaskInfo)
  | permille (n : ℕ)
deriving DecidableEq, Repr

namespace Scheduler

variable {s : Scheduler}

/-- What somebody inside the registry finds. -/
def look (s : Scheduler) : Question → Except SchedError Finding
  | .find id =>
      match s.registry.find? id with
      | some e => .ok (.task e.info)
      | none => .error (.notFound id)
  | .snapshot => .ok (.tasks s.registry.infos)
  | .utilization => .ok (.permille (totalUtilization s.registry.timings))

/-- Ask a question: take hold of the registry, look, and let go of it. -/
def ask (s : Scheduler) (q : Question) : Except SchedError Finding × Scheduler :=
  match s.enter with
  | .error e => (.error e, s)
  | .ok inside => (inside.look q, inside.leave)

theorem ask_find (s : Scheduler) (id : TaskId) :
    (s.ask (.find id)).1 = Finding.task <$> s.find id := by
  cases hheld : s.registry.held with
  | true =>
      simp [ask, enter_of_held hheld, find, Registry.lookup, Registry.enter_of_held hheld,
        bind, Except.bind]
  | false =>
      have hlook : s.holding.registry.find? id = s.registry.find? id := rfl
      have hlookup : ({ s.registry with held := true } : Registry).find? id =
          s.registry.find? id := rfl
      simp only [ask, enter_eq hheld, look, hlook, find, Registry.lookup, Registry.enter, hheld,
        bind, Except.bind, Bool.false_eq_true, if_false, hlookup]
      cases s.registry.find? id <;> rfl

theorem ask_snapshot (s : Scheduler) :
    (s.ask .snapshot).1 = Finding.tasks <$> s.snapshot := by
  cases hheld : s.registry.held with
  | true =>
      simp [ask, enter_of_held hheld, snapshot, Registry.listing, Registry.enter_of_held hheld,
        bind, Except.bind]
  | false =>
      simp only [ask, enter_eq hheld, look, snapshot, Registry.listing, Registry.enter, hheld,
        bind, Except.bind, Bool.false_eq_true, if_false]
      rfl

theorem ask_utilization (s : Scheduler) :
    (s.ask .utilization).1 = Finding.permille <$> s.utilization := by
  cases hheld : s.registry.held with
  | true => simp [ask, enter_of_held hheld, utilization, Registry.enter_of_held hheld]
  | false =>
      simp only [ask, enter_eq hheld, look, utilization, Registry.enter, hheld,
        Bool.false_eq_true, if_false]
      rfl

/-- Whoever asks leaves everything as it was. -/
theorem ask_unchanged (s : Scheduler) (q : Question) : (s.ask q).2 = s := by
  cases hheld : s.registry.held with
  | true => simp only [ask, enter_of_held hheld]
  | false => simp only [ask, enter_eq hheld, leave_holding hheld]

/-- The scheduler's own answer to a question. -/
def finding (s : Scheduler) : Question → Except SchedError Finding
  | .find id => Finding.task <$> s.find id
  | .snapshot => Finding.tasks <$> s.snapshot
  | .utilization => Finding.permille <$> s.utilization

/-- **Asking is the scheduler's own answer**, and changes nothing. -/
theorem ask_eq (s : Scheduler) (q : Question) : s.ask q = (s.finding q, s) := by
  refine Prod.ext ?_ (ask_unchanged s q)
  cases q with
  | find id => exact ask_find s id
  | snapshot => exact ask_snapshot s
  | utilization => exact ask_utilization s

/-! ### Whole operations -/

theorem register_of_error {resolver : Resolver} {now : Instant} {t : TaskInfo} {e : SchedError}
    (h : (s.register resolver now t).1 = .error e) : (s.register resolver now t).2 = s := by
  cases hheld : s.registry.held with
  | true =>
      simp only [register, enter_of_held hheld]
      cases s.checkTiming now t <;> rfl
  | false =>
      rw [register_eq hheld] at h ⊢
      cases hvet : s.vet resolver now t with
      | error _ => rfl
      | ok r =>
          rw [hvet] at h
          cases h

theorem deregister_of_error {id : TaskId} {e : SchedError} (h : (s.deregister id).1 = .error e) :
    (s.deregister id).2 = s := by
  cases hheld : s.registry.held with
  | true => simp only [deregister, enterFor, enter_of_held hheld]
  | false =>
      rw [deregister_eq hheld] at h ⊢
      cases hfind : s.registry.find? id with
      | none => rfl
      | some _ =>
          rw [hfind] at h
          cases h

theorem beginYield_of_error {now : Instant} {id : TaskId} {e : SchedError}
    (h : (s.beginYield now id).1 = .error e) : (s.beginYield now id).2 = s := by
  cases hheld : s.registry.held with
  | true => simp only [beginYield, enterFor, enter_of_held hheld]
  | false =>
      rw [beginYield_eq hheld] at h ⊢
      cases hlisted : s.registry.contains id with
      | false => simp
      | true =>
          rw [hlisted] at h
          simp only [if_true] at h ⊢
          cases hend : s.schedule.endJob id now with
          | error _ => rfl
          | ok r =>
              rw [hend] at h
              cases h

/-- **A refused operation leaves every scheduler as it was.** -/
theorem perform_of_error {resolver : Resolver} {now : Instant} {c : Call} {e : SchedError}
    (h : (s.perform resolver now c).1 = .error e) : (s.perform resolver now c).2 = s := by
  cases c with
  | register t => exact register_of_error h
  | deregister id => exact deregister_of_error h
  | beginYield id => exact beginYield_of_error h
  | start =>
      simp only [perform, start] at h ⊢
      split at h
      · next hstop => rw [if_pos hstop]
      · split at h <;> cases h
  | stop => cases h
  | release id => cases h
  | dispatch => cases h

end Scheduler

/-! ### Calls among others -/

namespace Activity

/-- Whether a call can still be turned away, or has been. -/
def refusable : Activity → Bool
  | .call _ => true
  | .resolve _ _ => true
  | .enroll _ _ => true
  | .endJob _ => true
  | .answered (.error _) => true
  | _ => false

/-- Whether a call is bound to be answered in the positive, or has been. -/
def accepted : Activity → Bool
  | .armFirst _ _ => true
  | .cancel _ => true
  | .awaitCallback _ => true
  | .withdraw _ => true
  | .strike _ _ => true
  | .armNext _ _ => true
  | .startLoop => true
  | .halt => true
  | .join rest => rest.accepted
  | .shutTimers rest => rest.accepted
  | .awaitWorker rest => rest.accepted
  | .reset _ rest => rest.accepted
  | .post _ rest => rest.accepted
  | .answered (.ok _) => true
  | _ => false

variable {s next : Scheduler} {resolver : Resolver} {now : Instant} {a rest : Activity}

theorem accepted_afterYield (id : TaskId) (y : YieldResult) :
    (afterYield id y).accepted = true := by
  unfold afterYield
  cases y.freedSlot <;> cases Scheduler.endedJob y.outcome <;> rfl

theorem accepted_after (holder : Option ExecHandle) :
    (after .reset holder finished).accepted = true := by
  cases holder <;> rfl

/-- A call that is bound to be answered in the positive stays so.  The task that it takes out of the
registry is there. -/
theorem accepted_of_step (h : a.step s resolver now = some (next, rest))
    (hfits : a.holds = true → a.Fits s) (ha : a.accepted = true) : rest.accepted = true := by
  cases a with
  | armFirst id first =>
      cases h
      rfl
  | cancel id =>
      cases h
      rfl
  | awaitCallback id =>
      simp only [step] at h
      split at h <;> cases h
      rfl
  | withdraw id =>
      cases h
      rfl
  | strike id freed =>
      simp only [step] at h
      split at h
      · next e herr =>
          obtain ⟨x, -, hremove⟩ := Registry.remove_of_contains ((hfits rfl).listed id rfl)
          simp [Scheduler.strike, hremove] at herr
      · cases h
        cases freed <;> rfl
  | armNext id y =>
      cases h
      exact accepted_afterYield id y
  | startLoop =>
      simp only [step] at h
      split at h <;> cases h <;> rfl
  | halt =>
      cases h
      exact accepted_after s.halt.1
  | join rest =>
      simp only [step] at h
      split at h
      · cases h
        exact ha
      · split at h <;> cases h
        exact ha
  | shutTimers rest =>
      cases h
      exact ha
  | awaitWorker rest =>
      simp only [step] at h
      split at h <;> cases h
      exact ha
  | reset handle rest =>
      cases h
      exact ha
  | post wake rest =>
      cases h
      exact ha
  | answered x => cases h
  | _ => cases ha

/-- The first section of a call takes hold of the registry at most, unless the call is bound to be
answered in the positive afterwards. -/
theorem refused_or_accepted_begin (s : Scheduler) (now : Instant) {c : Call}
    (hc : (Activity.call c).proper = true) :
    (begin s now c).2.accepted = true ∨
      ((begin s now c).2.refusable = true ∧ (begin s now c).1.holding = s.holding) := by
  cases c with
  | register t =>
      cases hheld : s.registry.held with
      | true =>
          simp only [begin, Scheduler.enter_of_held hheld]
          cases s.checkTiming now t <;> exact Or.inr ⟨rfl, rfl⟩
      | false =>
          rw [begin_register hheld]
          cases s.checkTiming now t with
          | error _ => exact Or.inr ⟨rfl, rfl⟩
          | ok first => cases s.checkCandidate t <;> exact Or.inr ⟨rfl, rfl⟩
  | deregister id =>
      simp only [begin]
      cases s.enterFor id with
      | error _ => exact Or.inr ⟨rfl, rfl⟩
      | ok inside => exact Or.inl rfl
  | beginYield id =>
      simp only [begin]
      cases henter : s.enterFor id with
      | error _ => exact Or.inr ⟨rfl, rfl⟩
      | ok inside =>
          obtain ⟨-, -, rfl⟩ := Scheduler.enterFor_eq_ok_iff.1 henter
          exact Or.inr ⟨rfl, rfl⟩
  | start =>
      simp only [begin]
      split
      · exact Or.inr ⟨rfl, rfl⟩
      · exact Or.inl rfl
  | stop =>
      simp only [begin]
      split <;> exact Or.inl rfl
  | release id =>
      simp only [begin]
      split <;> exact Or.inl rfl
  | dispatch => cases hc

/-- **A section changes something only when its call can be turned away no more.** -/
theorem refused_or_accepted (h : a.step s resolver now = some (next, rest))
    (hproper : a.proper = true) (ha : a.refusable = true) :
    rest.accepted = true ∨ (rest.refusable = true ∧ next.holding = s.holding) := by
  cases a with
  | call c =>
      have hbegin : begin s now c = (next, rest) := Option.some.inj h
      have hcases := refused_or_accepted_begin s now hproper
      rwa [hbegin] at hcases
  | resolve t first =>
      simp only [step] at h
      split at h <;> cases h <;> exact Or.inr ⟨rfl, rfl⟩
  | enroll e first =>
      simp only [step] at h
      split at h <;> cases h
      · exact Or.inr ⟨rfl, rfl⟩
      · exact Or.inl rfl
  | endJob id =>
      simp only [step] at h
      split at h <;> cases h
      · exact Or.inr ⟨rfl, rfl⟩
      · exact Or.inl rfl
  | answered x => cases h
  | _ => cases ha

end Activity

namespace System

variable {y : System} {i : ℕ}

/-- In a run, the sections of a call have changed nothing but who is inside the registry. -/
def Untouched (y : System) (run : List Action) (i : ℕ) : Prop :=
  ∀ before resolver now, before ++ [.advance i resolver now] <+: run →
    ((y.after before).act (.advance i resolver now)).scheduler.holding =
      (y.after before).scheduler.holding

theorem Untouched.snoc {run : List Action} (h : y.Untouched run i) {m : Action}
    (hm : ∀ resolver now, m = .advance i resolver now →
      ((y.after run).act m).scheduler.holding = (y.after run).scheduler.holding) :
    y.Untouched (run ++ [m]) i := by
  intro before resolver now hprefix
  rcases List.prefix_concat_iff.1 hprefix with heq | hprefix
  · obtain ⟨rfl, hlast⟩ := List.append_inj' heq rfl
    cases hlast
    exact hm resolver now rfl
  · exact h before resolver now hprefix

/-- **A call is bound to be answered in the positive, or has changed nothing yet.** -/
theorem untouched_or_accepted (hy : y.Kept) (hnone : y.calls = []) (i : ℕ) (run : List Action) :
    (y.Untouched run i ∧ ∀ a, (y.after run).calls[i]? = some a → a.refusable = true) ∨
      ∃ a, (y.after run).calls[i]? = some a ∧ a.accepted = true := by
  refine hy.history (Q := fun run =>
    (y.Untouched run i ∧ ∀ a, (y.after run).calls[i]? = some a → a.refusable = true) ∨
      ∃ a, (y.after run).calls[i]? = some a ∧ a.accepted = true) run ?_ ?_
  · refine Or.inl ⟨fun before _ _ hprefix => ?_, by simp [hnone]⟩
    simp at hprefix
  · intro before m _ hkept hbefore
    have hnext := y.after_concat before m
    rw [hnext]
    rcases getElem?_act (y.after before) m i with
      ⟨hsame, hstutter⟩ | ⟨c, rfl, hnew, hcall⟩ |
        ⟨resolver, now, a, next, rest, rfl, ha, hstep, heq⟩
    · rw [hsame]
      refine hbefore.imp_left fun ⟨huntouched, hrefusable⟩ => ⟨?_, hrefusable⟩
      exact huntouched.snoc fun resolver now hm => by rw [hstutter resolver now hm]
    · rcases hbefore with ⟨huntouched, -⟩ | ⟨a, ha, -⟩
      · refine Or.inl ⟨huntouched.snoc fun _ _ hm => (by cases hm), fun a ha => ?_⟩
        rw [hcall] at ha
        cases ha
        rfl
      · rw [hnew] at ha
        cases ha
    · have hmem : a ∈ (y.after before).calls := List.mem_of_getElem? ha
      obtain ⟨hi, -⟩ := List.getElem?_eq_some_iff.1 ha
      have hrest : ((y.after before).act (.advance i resolver now)).calls[i]? = some rest := by
        rw [heq]
        exact List.getElem?_set_self hi
      rw [hrest]
      rcases hbefore with ⟨huntouched, hrefusable⟩ | ⟨b, hb, haccepted⟩
      · rcases Activity.refused_or_accepted hstep (hkept.proper a hmem) (hrefusable a ha) with
          haccepted | ⟨hrefused, hsame⟩
        · exact Or.inr ⟨rest, rfl, haccepted⟩
        · refine Or.inl ⟨huntouched.snoc fun _ _ _ => by rw [heq]; exact hsame, ?_⟩
          rintro b ⟨⟩
          exact hrefused
      · rw [ha] at hb
        cases hb
        exact Or.inr ⟨rest, rfl, Activity.accepted_of_step hstep (hkept.fits a hmem) haccepted⟩

/-- What refused calls and questions change. -/
structure LeavesNoTrace (y : System) (run : List Action) : Prop where
  /-- An operation that is refused leaves everything as it was, whoever holds the registry. -/
  operation : ∀ resolver now c e, ((y.after run).scheduler.perform resolver now c).1 = .error e →
    ((y.after run).scheduler.perform resolver now c).2 = (y.after run).scheduler
  /-- So does every question, whatever the answer. -/
  question : ∀ q, (y.after run).scheduler.ask q =
    ((y.after run).scheduler.finding q, (y.after run).scheduler)
  /-- A call among others that has been refused has changed nothing with any of its sections, but
  who is inside the registry. -/
  call : ∀ i e, (y.after run).calls[i]? = some (.answered (.error e)) → y.Untouched run i

/-- **No refused call has changed anything**, in any run. -/
theorem leavesNoTrace_after {c : Config} {s : Scheduler} (hs : Scheduler.new c = .ok s)
    (run : List Action) : (idle s).LeavesNoTrace run := by
  obtain ⟨-, rfl⟩ := Scheduler.new_eq_ok hs
  refine ⟨fun _ _ _ _ => Scheduler.perform_of_error, Scheduler.ask_eq _, fun i e hrefused => ?_⟩
  rcases untouched_or_accepted (kept_idle c) rfl i run with ⟨huntouched, -⟩ | ⟨a, ha, haccepted⟩
  · exact huntouched
  · rw [hrefused] at ha
    cases ha
    cases haccepted

/-- Two calls register the same task, and overlap: one is turned away while the other is inside, and
one after it; a yield is turned away after everything has been stopped. -/
def overlapping : List Action :=
  .invoke (.register ⟨⟨1⟩, Duration.ofMillis 100, Duration.ofMillis 1⟩) ::
    sections 0 2 Instant.start ++
  .invoke (.register ⟨⟨1⟩, Duration.ofMillis 100, Duration.ofMillis 1⟩) ::
    sections 1 1 Instant.start ++ sections 0 2 Instant.start ++
  .invoke (.register ⟨⟨1⟩, Duration.ofMillis 100, Duration.ofMillis 1⟩) ::
    sections 2 1 Instant.start ++
  .invoke .stop :: sections 3 8 Instant.start ++
  .invoke (.beginYield ⟨2⟩) :: sections 4 1 Instant.start

theorem leavesNoTrace_overlapping :
    let y := idle (Scheduler.ofConfig Config.default)
    y.LeavesNoTrace overlapping ∧
      (y.after overlapping).calls.map Activity.refusable = [false, true, true, false, true] :=
  ⟨leavesNoTrace_after (c := Config.default) rfl overlapping, by decide⟩

end System

end RateMonotonic
