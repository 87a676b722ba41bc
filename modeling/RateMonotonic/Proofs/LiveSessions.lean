/-
**A live session answers as a ledger does.**

Between two sections of a session's call the dispatcher loop and the timer worker may do anything
they can do.  They move tasks from state to state, but the end of the call is settled, and so a beat
of the session is a step of the ledger or none at all: the ledger of a live session is what a ledger
would hold once the call in progress has come to its end, and no beat changes what the ledger will
hold when all lines are read.

Main definitions:
* `LiveSession.system` — a live session as a system with one client;
* `System.Steady`, `LiveSession.Steady` — what every beat keeps;
* `LiveSession.ledger`, `LiveSession.total` — the ledger now, and after the remaining lines.

Main results:
* `LiveSession.read_text` — what reading a line begins, or does at once;
* `LiveSession.Steady.continues` — what a session can do when it goes on;
* `LiveSession.Steady.follows_beat` — **no beat changes the ledger that the session comes to**.
-/

import Mathlib.Data.List.ReduceOption
import RateMonotonic.LiveSession
import RateMonotonic.Proofs.Ledger
import RateMonotonic.Proofs.ReleaseTimers

set_option relaxedAutoImplicit false
set_option autoImplicit false

namespace RateMonotonic

/-! ### The scheduler of one client -/

/-- What every state keeps in which nobody has released a task by hand. -/
structure System.Steady (c : Config) (y : System) : Prop where
  kept : y.Kept
  timed : y.Timed
  admitted : y.Admitted c
  /-- A worker that waits has no callback in flight. -/
  resting : y.scheduler.worker = .idle → y.scheduler.timers.inFlight = none

namespace System

theorem steady_idle (c : Config) : (idle (Scheduler.ofConfig c)).Steady c :=
  ⟨kept_idle c, timed_idle c, admitted_idle c, fun _ => rfl⟩

variable {c : Config} {y : System}

/-- **Every action keeps the invariant**, unless it releases a task by hand. -/
theorem Steady.act (h : y.Steady c) (hbound : c.utilizationBound.toNat < 2 ^ 64 - 1) {m : Action}
    (hm : ∀ id, m ≠ .invoke (.release id)) : (y.act m).Steady c where
  kept := h.kept.act m
  timed := h.timed.act h.kept hm
  admitted := h.admitted.act h.kept hbound m
  resting := by
    have hacts := acts_act h.kept.proper m
    generalize y.act m = next at hacts
    cases hacts with
    | stutter _ => exact h.resting
    | invoke _ => exact h.resting
    | advance _ ha =>
        obtain ⟨hworker, hflight⟩ := ha.worker
        exact fun hidle => hflight.trans (h.resting (hworker.symm.trans hidle))
    | loop hloop => cases hloop <;> exact h.resting
    | worker hworker =>
        cases hworker with
        | finish _ => exact fun _ => rfl
        | _ => exact fun hidle => by cases hidle

/-- Nothing depends on a call that has been answered. -/
theorem Steady.dismiss {s : Scheduler} {x : Answer} (h : Steady c ⟨s, [.answered x]⟩) :
    Steady c ⟨s, []⟩ where
  kept := ⟨h.kept.sound, by simp, h.kept.exclusive, by simp, h.kept.agrees⟩
  timed := ⟨by simp, h.timed.flight, fun id _ => h.timed.clocked id (by simp [Activity.suspends]),
    by simp⟩
  admitted := ⟨h.admitted.config, h.admitted.within, by simp⟩
  resting := h.resting

/-- Starting the loop leaves everything alone that the invariant is about. -/
theorem Steady.start {s : Scheduler} (h : Steady c ⟨s, []⟩) : Steady c ⟨s.start.2, []⟩ := by
  have hstart : s.start.2 = s ∨
      s.start.2 = { s with joinable := true, loop := .waiting }.post .started := by
    unfold Scheduler.start
    split
    · exact Or.inl rfl
    · split
      · exact Or.inl rfl
      · exact Or.inr rfl
  rcases hstart with heq | heq
  · rwa [heq]
  · rw [heq]
    have hkeeps : Scheduler.Keeps s ({ s with joinable := true, loop := .waiting }.post .started) :=
      ⟨rfl, h.kept.sound, fun _ => rfl⟩
    exact ⟨h.kept.thread hkeeps, h.timed.of_same h.timed.flight fun _ => .of_eq rfl rfl rfl,
      h.admitted.thread rfl rfl, h.resting⟩

end System

/-- No section of a call begins another one. -/
theorem Activity.Advances.ne_call {s next : Scheduler} {a rest : Activity}
    (h : Activity.Advances s a next rest) (ha : a.proper = true) (d : Call) : rest ≠ .call d := by
  have hclosing : ∀ {b : Activity}, b.closing = true → b ≠ .call d := by
    rintro b hb rfl
    cases hb
  cases h with
  | armNext _ => exact hclosing (Activity.closing_afterYield _ _)
  | @strike _ freed _ _ _ => cases freed <;> simp
  | unjoined => exact hclosing ha
  | join _ => exact hclosing ha
  | shutTimers => exact hclosing ha
  | awaitWorker => exact hclosing ha
  | reset => exact hclosing ha
  | post => exact hclosing ha
  | _ => simp [Activity.finished]

/-! ### Reading -/

/-- The summary after one more command. -/
def Summary.count (s : Summary) (accepted : Bool) : Summary :=
  if accepted then { s with applied := s.applied + 1 } else { s with rejected := s.rejected + 1 }

theorem Session.write_none (s : Session) (report : String) :
    s.write none report =
      { s with
        out := s.out ++ report
        summary := { s.summary with applied := s.summary.applied + 1 } } := by
  simp [Session.write]

/-- The end of an answered call is noted. -/
theorem Session.note_of_fate {g : Ledger.Rules} {tasks : List TaskInfo} {x : Answer} {f : Fate}
    (h : (Activity.answered x).fate g tasks = some f) (s : Session) :
    s.note none x = { s with summary := s.summary.count f.accepted } ∧ f.tasks = tasks := by
  cases x with
  | error e =>
      cases h
      exact ⟨rfl, rfl⟩
  | ok reply =>
      cases reply <;> cases h <;> exact ⟨rfl, rfl⟩

namespace LiveSession

/-- **Reading a line** begins a call, or is over at once. -/
theorem read_text {q : Session} (hfailed : q.failed = false)
    (hfree : q.scheduler.registry.held = false) (rest : List (Option (List Char)))
    (resolver : Resolver) (now : Instant) (text : List Char) :
    read resolver now none ⟨q, none, rest⟩ (some text) =
      if Session.isSkipped (Blank.trim text) then ⟨q, none, rest⟩
      else
        match Command.parse (Blank.trim text) with
        | .error _ => ⟨{ q with summary.malformed := q.summary.malformed + 1 }, none, rest⟩
        | .ok c =>
            match c.call? with
            | some call => ⟨q, some (.call call), rest⟩
            | none => ⟨q.write none (Report.text q.scheduler.registry.infos), none, rest⟩ := by
  have hsnapshot : q.scheduler.snapshot = .ok q.scheduler.registry.infos := by
    simp [Scheduler.snapshot, Registry.listing, Registry.enter, hfree, bind, Except.bind, pure,
      Except.pure, Registry.infos]
  simp only [read, Session.call?, Session.step, hfailed, Session.readLine]
  cases Session.isSkipped (Blank.trim text) with
  | true => rfl
  | false =>
      cases Command.parse (Blank.trim text) with
      | error e => rfl
      | ok c =>
          cases hcall : c.call? with
          | some call => simp [hcall]
          | none => simp [hcall, Session.obey, Scheduler.execute, hsnapshot, Session.note]

/-! ### The ledger of a live session -/

/-- The ledger that a session comes to with the call in progress. -/
def ledger (g : Ledger.Rules) (v : LiveSession) : Ledger :=
  let tasks := v.session.scheduler.registry.infos
  match v.call.bind (·.fate g tasks) with
  | none => ⟨tasks, v.session.summary, v.session.out⟩
  | some f => ⟨f.tasks, v.session.summary.count f.accepted, v.session.out⟩

/-- The ledger that a session comes to with all lines that remain. -/
def total (g : Ledger.Rules) (v : LiveSession) : Ledger :=
  v.lines.reduceOption.foldl (Ledger.line g) (v.ledger g)

variable {g : Ledger.Rules} {c : Config} {v w : LiveSession} {now : Instant}

theorem ledger_of_none (h : v.call = none) :
    v.ledger g = ⟨v.session.scheduler.registry.infos, v.session.summary, v.session.out⟩ := by
  simp [ledger, h]

theorem ledger_of_fate {a : Activity} {f : Fate} (h : v.call = some a)
    (hf : a.fate g v.session.scheduler.registry.infos = some f) :
    v.ledger g = ⟨f.tasks, v.session.summary.count f.accepted, v.session.out⟩ := by
  simp [ledger, h, hf]

/-- The scheduler with the call in progress, if there is one. -/
def system (v : LiveSession) : System := ⟨v.session.scheduler, v.call.toList⟩

/-- What every beat of a session keeps. -/
structure Steady (g : Ledger.Rules) (c : Config) (v : LiveSession) : Prop where
  /-- The call in progress is the only one. -/
  system : v.system.Steady c
  /-- Reading and writing have not failed. -/
  failed : v.session.failed = false
  /-- Every line is text. -/
  texts : ∀ line ∈ v.lines, ∃ text, line = some text
  /-- The call in progress comes to an end. -/
  fated : ∀ a, v.call = some a → ∃ f, a.fate g v.session.scheduler.registry.infos = some f

/-- A task that the session is still going to register. -/
def Asks (v : LiveSession) (t : TaskInfo) : Prop :=
  v.call = some (.call (.register t)) ∨ .register t ∈ v.lines.filterMap Session.call?

/-! ### Going on -/

/-- What a session does when it goes on. -/
inductive Continues (g : Ledger.Rules) (now : Instant) (v : LiveSession) : LiveSession → Prop where
  /-- It is at its end, or has to wait. -/
  | stay (idle : v.call = none → v.lines = [])
      (waits : ∀ a, v.call = some a → (∀ x, a ≠ .answered x) ∧
        a.step v.session.scheduler g.resolver now = none) :
      Continues g now v v
  /-- A line asks for no call. -/
  | pass {text : List Char} {rest : List (Option (List Char))} {q : Session} (idle : v.call = none)
      (lines : v.lines = some text :: rest) (scheduler : q.scheduler = v.session.scheduler)
      (failed : q.failed = false)
      (ledger : ⟨q.scheduler.registry.infos, q.summary, q.out⟩ =
        Ledger.line g (v.ledger g) text) : Continues g now v ⟨q, none, rest⟩
  /-- A line asks for a call. -/
  | begin {text : List Char} {rest : List (Option (List Char))} {call : Call} {f : Fate}
      (idle : v.call = none) (lines : v.lines = some text :: rest)
      (asks : Session.call? (some text) = some call)
      (fate : (Activity.call call).fate g v.session.scheduler.registry.infos = some f)
      (ledger : ⟨f.tasks, v.session.summary.count f.accepted, v.session.out⟩ =
        Ledger.line g (v.ledger g) text) : Continues g now v ⟨v.session, some (.call call), rest⟩
  /-- The call in progress takes its next section. -/
  | advance {a rest : Activity} {next : Scheduler} (call : v.call = some a)
      (step : a.step v.session.scheduler g.resolver now = some (next, rest)) :
      Continues g now v { v.withScheduler next with call := some rest }
  /-- The answer of a call is noted. -/
  | note {x : Answer} (call : v.call = some (.answered x)) :
      Continues g now v { v with session := v.session.note none x, call := none }

/-- A command that is no report is a call, with the end of the command. -/
theorem fate_of_call? (g : Ledger.Rules) (tasks : List TaskInfo) {cmd : Command} {call : Call}
    (h : cmd.call? = some call) :
    cmd ≠ .status ∧ (Activity.call call).fate g tasks = some (g.fate tasks cmd) := by
  cases cmd <;> cases h <;> exact ⟨by simp, rfl⟩

/-- A command that is no report leaves a ledger with its end. -/
theorem obey_of_fate (g : Ledger.Rules) (l : Ledger) {cmd : Command} (h : cmd ≠ .status) :
    l.obey g cmd =
      ⟨(g.fate l.tasks cmd).tasks, l.summary.count (g.fate l.tasks cmd).accepted, l.out⟩ := by
  unfold Ledger.obey Ledger.Rules.fate
  cases g.apply l.tasks cmd with
  | none => rfl
  | some tasks => simp [h, Summary.count]

/-- A session without a call in progress finds the registry free. -/
theorem Steady.free (h : v.Steady g c) (hcall : v.call = none) :
    v.session.scheduler.registry.held = false := by
  have hcount := h.system.kept.exclusive
  simp only [LiveSession.system, hcall, Option.toList_none, List.countP_nil] at hcount
  cases hheld : v.session.scheduler.registry.held with
  | false => rfl
  | true =>
      rw [hheld] at hcount
      cases hcount

/-- Reading a line is what the ledger does with it, or begins a call that comes to the same end. -/
theorem continues_read {q : Session} (hfailed : q.failed = false)
    (hfree : q.scheduler.registry.held = false) (rest : List (Option (List Char)))
    (now : Instant) (text : List Char) :
    Continues g now ⟨q, none, some text :: rest⟩
      (read g.resolver now none ⟨q, none, rest⟩ (some text)) := by
  have hline := Ledger.line_eq g ⟨q.scheduler.registry.infos, q.summary, q.out⟩ text
  rw [read_text hfailed hfree]
  cases hskip : Session.isSkipped (Blank.trim text) with
  | true =>
      rw [hskip] at hline
      exact .pass rfl rfl rfl hfailed hline.symm
  | false =>
      rw [hskip] at hline
      cases hparse : Command.parse (Blank.trim text) with
      | error e =>
          rw [hparse] at hline
          exact .pass rfl rfl rfl hfailed hline.symm
      | ok cmd =>
          rw [hparse] at hline
          cases hcall : cmd.call? with
          | some call =>
              obtain ⟨hne, hfate⟩ := fate_of_call? g q.scheduler.registry.infos hcall
              have hasks : Session.call? (some text) = some call := by
                simp [Session.call?, hskip, hparse, hcall]
              simp only [Bool.false_eq_true, if_false, hcall]
              exact .begin rfl rfl hasks hfate (hline.trans (obey_of_fate g _ hne)).symm
          | none =>
              have hstatus : cmd = .status := by cases cmd <;> first | rfl | cases hcall
              subst hstatus
              rw [Session.write_none]
              exact .pass rfl rfl rfl hfailed hline.symm

/-- **A session that goes on does one of these things.** -/
theorem Steady.continues (h : v.Steady g c) (now : Instant) :
    Continues g now v (v.goOn g.resolver now none) := by
  obtain ⟨q, call, lines⟩ := v
  unfold goOn
  split
  · next hcall =>
      dsimp only at hcall
      subst hcall
      cases lines with
      | nil => exact .stay (fun _ => rfl) (by simp)
      | cons line rest =>
          obtain ⟨text, rfl⟩ := h.texts line (by simp)
          exact continues_read h.failed (h.free rfl) rest now text
  · next x hcall => exact .note hcall
  · next a hbusy hcall =>
      cases hstep : a.step q.scheduler g.resolver now with
      | none =>
          refine .stay (fun hidle => ?_) fun b hb => ?_
          · cases hidle.symm.trans hcall
          · cases hcall.symm.trans hb
            exact ⟨hbusy, hstep⟩
      | some r => exact .advance hcall hstep

/-- Going on asks for nothing new. -/
theorem Steady.asks_goesOn (h : v.Steady g c) (hw : Continues g now v w) {t : TaskInfo}
    (ht : w.Asks t) : v.Asks t := by
  cases hw with
  | stay _ _ => exact ht
  | pass _ lines _ _ _ =>
      rcases ht with hcall | hline
      · cases hcall
      · refine Or.inr ?_
        rw [lines, List.mem_filterMap]
        obtain ⟨line, hmem, hline⟩ := List.mem_filterMap.1 hline
        exact ⟨line, List.mem_cons_of_mem _ hmem, hline⟩
  | begin _ lines asks _ _ =>
      refine Or.inr ?_
      rw [lines, List.mem_filterMap]
      rcases ht with hcall | hline
      · cases hcall
        exact ⟨_, List.mem_cons_self, asks⟩
      · obtain ⟨line, hmem, hline⟩ := List.mem_filterMap.1 hline
        exact ⟨line, List.mem_cons_of_mem _ hmem, hline⟩
  | @advance a rest next call step =>
      rcases ht with hcall | hline
      · have hproper := h.system.kept.proper a (by simp [LiveSession.system, call])
        have hadvances := Activity.advances_of_step hproper step
        exact absurd (Option.some.inj hcall) (hadvances.ne_call hproper _)
      · exact Or.inr hline
  | note _ =>
      rcases ht with hcall | hline
      · cases hcall
      · exact Or.inr hline

/-! ### Beats -/

section Beats

variable (hg : g.bound = c.utilizationBound.toNat) (hsmall : g.bound < 2 ^ 64 - 1)

include hg hsmall

/-- A ledger that knows the bound serves the scheduler of the session. -/
theorem Steady.serves (h : v.Steady g c) : g.Serves v.session.scheduler := by
  have hconfig : v.session.scheduler.config = c := h.system.admitted.config
  refine ⟨?_, ?_, ?_⟩
  · rw [hconfig, hg]
  · rwa [hconfig, ← hg]
  · rw [hconfig]
    exact h.system.admitted.within

/-- The end of the call in progress stays what it is. -/
theorem Steady.fate_section (h : v.Steady g c)
    (hrep : ∀ t, v.Asks t →
      ((Scheduler.ofConfig c).firstRelease? now t.period).isSome = g.representable t.period)
    {a rest : Activity} {next : Scheduler} (hcall : v.call = some a)
    (hstep : a.step v.session.scheduler g.resolver now = some (next, rest)) {f : Fate}
    (hf : a.fate g v.session.scheduler.registry.infos = some f) :
    rest.fate g next.registry.infos = some f := by
  have hkept : System.Kept ⟨v.session.scheduler, [a]⟩ := by
    have hkept := h.system.kept
    rwa [LiveSession.system, hcall] at hkept
  refine Activity.fate_step (h.serves hg hsmall) hkept hf (fun t ht => ?_) hstep
  have hconfig : v.session.scheduler.config = c := h.system.admitted.config
  rw [← hrep t (Or.inl (by rw [hcall, ht])), Scheduler.firstRelease?, hconfig]
  rfl

/-- Going on keeps the invariant. -/
theorem Steady.goesOn (h : v.Steady g c) (hw : Continues g now v w)
    (hrep : ∀ t, v.Asks t →
      ((Scheduler.ofConfig c).firstRelease? now t.period).isSome = g.representable t.period) :
    w.Steady g c := by
  have hsystem := h.system
  have hbound : c.utilizationBound.toNat < 2 ^ 64 - 1 := hg ▸ hsmall
  cases hw with
  | stay _ _ => exact h
  | pass idle lines scheduler failed _ =>
      refine ⟨?_, failed, fun line hline => h.texts line ?_, by simp⟩
      · rw [LiveSession.system, idle] at hsystem
        rwa [LiveSession.system, scheduler]
      · rw [lines]
        exact List.mem_cons_of_mem _ hline
  | @begin _ _ call f idle lines _ fate _ =>
      rw [LiveSession.system, idle] at hsystem
      refine ⟨?_, h.failed, fun line hline => h.texts line ?_, ?_⟩
      · have hinvoke : ∀ id, Action.invoke call ≠ .invoke (.release id) := by
          rintro id ⟨⟩
          cases fate
        have hact := hsystem.act hbound hinvoke
        cases call with
        | dispatch => cases fate
        | _ => exact hact
      · rw [lines]
        exact List.mem_cons_of_mem _ hline
      · rintro a ⟨⟩
        exact ⟨f, fate⟩
  | @advance a rest next call step =>
      obtain ⟨f, hf⟩ := h.fated a call
      rw [LiveSession.system, call] at hsystem
      refine ⟨?_, h.failed, h.texts, ?_⟩
      · have hact := hsystem.act (m := .advance 0 g.resolver now) hbound (by simp)
        simp only [Option.toList_some, System.act, List.getElem?_cons_zero, step,
          List.set_cons_zero] at hact
        exact hact
      · rintro b ⟨⟩
        exact ⟨f, h.fate_section hg hsmall hrep call step hf⟩
  | @note x call =>
      obtain ⟨f, hf⟩ := h.fated _ call
      rw [LiveSession.system, call] at hsystem
      have hnote := (Session.note_of_fate hf v.session).1
      refine ⟨?_, ?_, h.texts, by simp⟩
      · rw [hnote]
        exact hsystem.dismiss
      · rw [hnote]
        exact h.failed

/-- Going on leaves alone what the session comes to. -/
theorem Steady.total_goesOn (h : v.Steady g c) (hw : Continues g now v w)
    (hrep : ∀ t, v.Asks t →
      ((Scheduler.ofConfig c).firstRelease? now t.period).isSome = g.representable t.period) :
    w.total g = v.total g := by
  cases hw with
  | stay _ _ => rfl
  | @pass text rest q _ lines _ _ ledger =>
      rw [total, total, lines, List.reduceOption_cons_of_some, List.foldl_cons, ← ledger]
      rfl
  | @begin text rest call f _ lines _ fate ledger =>
      rw [total, total, lines, List.reduceOption_cons_of_some, List.foldl_cons, ← ledger,
        ledger_of_fate (v := ⟨v.session, some (.call call), rest⟩) rfl fate]
  | @advance a rest next call step =>
      obtain ⟨f, hf⟩ := h.fated a call
      have hnext := h.fate_section hg hsmall hrep call step hf
      rw [total, total, ledger_of_fate call hf,
        ledger_of_fate (v := { v.withScheduler next with call := some rest }) rfl hnext]
      rfl
  | @note x call =>
      obtain ⟨f, hf⟩ := h.fated _ call
      obtain ⟨hnote, htasks⟩ := Session.note_of_fate hf v.session
      rw [total, total, ledger_of_fate call hf, ledger_of_none rfl, hnote, htasks]

end Beats

/-- Whatever a beat has led to: the invariant holds, and the session comes to the same ledger. -/
structure Follows (g : Ledger.Rules) (c : Config) (v w : LiveSession) : Prop where
  steady : w.Steady g c
  total : w.total g = v.total g
  asks : ∀ t, w.Asks t → v.Asks t

theorem Steady.follows (h : v.Steady g c) : Follows g c v v := ⟨h, rfl, fun _ ht => ht⟩

theorem Follows.trans {u : LiveSession} (h : Follows g c u v) (hw : Follows g c v w) :
    Follows g c u w :=
  ⟨hw.steady, hw.total.trans h.total, fun t ht => h.asks t (hw.asks t ht)⟩

/-- A thread that leaves the registry alone leaves the session alone. -/
theorem Steady.withScheduler (h : v.Steady g c) {next : Scheduler}
    (hsystem : System.Steady c ⟨next, v.call.toList⟩)
    (hregistry : next.registry = v.session.scheduler.registry) :
    Follows g c v (v.withScheduler next) := by
  refine ⟨⟨hsystem, h.failed, h.texts, fun a ha => ?_⟩, ?_, fun _ ht => ht⟩
  · rw [show (v.withScheduler next).session.scheduler.registry = _ from hregistry]
    exact h.fated a ha
  · rw [LiveSession.total, LiveSession.total, LiveSession.ledger, LiveSession.ledger,
      show (v.withScheduler next).session.scheduler.registry = _ from hregistry]
    rfl

section Beats

variable (hg : g.bound = c.utilizationBound.toNat) (hsmall : g.bound < 2 ^ 64 - 1)

include hg hsmall

/-- **Every beat keeps the invariant**, and the ledger that the session comes to. -/
theorem Steady.follows_beat (h : v.Steady g c) (b : Beat)
    (hrep : ∀ now, b = .client now → ∀ t, v.Asks t →
      ((Scheduler.ofConfig c).firstRelease? now t.period).isSome = g.representable t.period) :
    Follows g c v (v.beat g.resolver none b) := by
  have hbound : c.utilizationBound.toNat < 2 ^ 64 - 1 := hg ▸ hsmall
  cases b with
  | client now =>
      have hw := h.continues now
      exact ⟨h.goesOn hg hsmall hw (hrep now rfl), h.total_goesOn hg hsmall hw (hrep now rfl),
        fun _ ht => h.asks_goesOn hw ht⟩
  | loop =>
      refine h.withScheduler (h.system.act hbound (m := .loop) (by simp)) ?_
      cases hloop : v.session.scheduler.loopStep with
      | none => rfl
      | some next =>
          exact ((Scheduler.loopSteps_of_loopStep hloop).keeps h.system.kept.sound).registry
  | worker now =>
      refine h.withScheduler (h.system.act hbound (m := .worker now) (by simp)) ?_
      cases hworker : v.session.scheduler.workerStep now with
      | none => rfl
      | some next =>
          exact ((Scheduler.workerSteps_of_workerStep hworker).keeps h.system.kept.sound).registry

/-- **Every run of beats** keeps the invariant, and the ledger that the session comes to. -/
theorem Steady.follows_after (h : v.Steady g c) (beats : List Beat)
    (hrep : ∀ now, .client now ∈ beats → ∀ t, v.Asks t →
      ((Scheduler.ofConfig c).firstRelease? now t.period).isSome = g.representable t.period) :
    Follows g c v (v.after g.resolver none beats) := by
  induction beats generalizing v with
  | nil => exact h.follows
  | cons b beats ih =>
      have hbeat := h.follows_beat hg hsmall b fun now hb => hrep now (hb ▸ List.mem_cons_self)
      refine hbeat.trans (ih hbeat.steady fun now hmem t ht => ?_)
      exact hrep now (List.mem_cons_of_mem b hmem) t (hbeat.asks t ht)

end Beats

/-- A session that has come to its end has the answer of its ledger. -/
theorem Steady.result_of_ended (h : v.Steady g c) (hended : v.ended = true) :
    v.session.result = .ok (v.total g).summary ∧ v.session.out = (v.total g).out := by
  obtain ⟨hcall, hlines⟩ : v.call = none ∧ v.lines = [] := by simpa [ended] using hended
  have htotal : v.total g = v.ledger g := by simp [total, hlines]
  rw [htotal, ledger_of_none hcall, Session.result, h.failed]
  exact ⟨rfl, rfl⟩

end LiveSession

end RateMonotonic
