/-
**The answer of a session does not depend on timing.**

A session that is its scheduler's only client answers as a ledger does, wherever between the
sections of its calls the loop decides and timers fire.  The clock has a say only in whether the
first boundaries of a task are on it; where that is the same at all times at which the session
looks, the answer is a function of the text.

Main definitions:
* `Session.Timeless` — a session gives an answer, alone as among the threads.

Main results:
* `LiveSession.Steady.exists_alone` — **a session without the threads is a live session of which
  only the session itself goes on**;
* `Session.timeless` — **every session gives the answer of a ledger.**
-/

import RateMonotonic.Proofs.SessionEnd
import RateMonotonic.Proofs.TextLines

set_option relaxedAutoImplicit false
set_option autoImplicit false

namespace RateMonotonic

namespace LiveSession

variable {g : Ledger.Rules} {c : Config} {v w : LiveSession} {now : Instant}

theorem after_append (v : LiveSession) (resolver : Resolver) (room : Option ℕ)
    (beats more : List Beat) :
    v.after resolver room (beats ++ more) =
      (v.after resolver room beats).after resolver room more := List.foldl_append

/-! ### The session alone -/

/-- Going on leaves the worker alone. -/
theorem Steady.worker_goesOn (h : v.Steady g c) (hw : Continues g now v w) :
    w.session.scheduler.worker = v.session.scheduler.worker := by
  cases hw with
  | stay _ _ => rfl
  | pass _ _ scheduler _ _ => rw [scheduler]
  | begin _ _ _ _ _ => rfl
  | @advance a rest next call step =>
      have hproper := h.system.kept.proper a (by simp [LiveSession.system, call])
      exact (Activity.advances_of_step hproper step).worker.1
  | note call =>
      obtain ⟨f, hf⟩ := h.fated _ call
      rw [(Session.note_of_fate hf v.session).1]

/-- The sections of a call, taken in a row. -/
theorem exists_run {resolver : Resolver} {n : ℕ} {q : Session} {a : Activity} {next : Scheduler}
    {x : Answer} (h : Activity.run resolver now n q.scheduler a = (next, .answered x))
    (lines : List (Option (List Char))) :
    ∃ k, (⟨q, some a, lines⟩ : LiveSession).after resolver none (List.replicate k (.client now)) =
      ⟨{ q with scheduler := next }, some (.answered x), lines⟩ := by
  induction n generalizing q a with
  | zero =>
      cases h
      exact ⟨0, rfl⟩
  | succ n ih =>
      rw [Activity.run] at h
      cases hstep : a.step q.scheduler resolver now with
      | none =>
          rw [hstep] at h
          cases h
          exact ⟨0, rfl⟩
      | some r =>
          obtain ⟨mid, rest⟩ := r
          rw [hstep] at h
          obtain ⟨k, hk⟩ := ih (q := { q with scheduler := mid }) h
          refine ⟨k + 1, ?_⟩
          have hgo : (⟨q, some a, lines⟩ : LiveSession).goOn resolver now none =
              ⟨{ q with scheduler := mid }, some rest, lines⟩ := by
            cases a with
            | answered y => cases hstep
            | _ => simp only [goOn, hstep, withScheduler]
          rw [List.replicate_succ, after, List.foldl_cons, beat, hgo]
          exact hk

/-- A call of a session is taken in a row while the worker waits. -/
theorem run_perform {s : Scheduler} (hflight : s.timers.inFlight = none) (resolver : Resolver)
    (now : Instant) {cmd : Command} {call : Call} (hcall : cmd.call? = some call) :
    ∃ n, Activity.run resolver now n s (.call call) =
      ((s.perform resolver now call).2, .answered (s.perform resolver now call).1) := by
  cases cmd with
  | register id period budget =>
      cases hcall
      exact ⟨4, Activity.run_register s resolver now _⟩
  | yield id =>
      cases hcall
      exact ⟨5, Activity.run_beginYield s resolver now id⟩
  | deregister id =>
      cases hcall
      exact ⟨7, Activity.run_deregister s resolver now id (by simp [hflight])⟩
  | status => cases hcall

/-- A line of a session alone. -/
theorem exists_line {q : Session} (hfailed : q.failed = false)
    (hflight : q.scheduler.timers.inFlight = none) (resolver : Resolver) (now : Instant)
    (text : List Char) (rest : List (Option (List Char))) :
    ∃ k, (⟨q, none, some text :: rest⟩ : LiveSession).after resolver none
        (List.replicate (k + 1) (.client now)) =
      ⟨q.step resolver now none (some text), none, rest⟩ := by
  have hread : (⟨q, none, some text :: rest⟩ : LiveSession).goOn resolver now none =
      read resolver now none ⟨q, none, rest⟩ (some text) := rfl
  have hfirst : ∀ k, (⟨q, none, some text :: rest⟩ : LiveSession).after resolver none
      (List.replicate (k + 1) (.client now)) =
        (read resolver now none ⟨q, none, rest⟩ (some text)).after resolver none
          (List.replicate k (.client now)) := fun k => rfl
  cases hcall : Session.call? (some text) with
  | none =>
      refine ⟨0, ?_⟩
      rw [hfirst, read, hcall]
      rfl
  | some call =>
      -- The line asks for a call: its sections follow, and the note of its answer.
      obtain ⟨cmd, hskip, hparse, hcmd⟩ : ∃ cmd, Session.isSkipped (Blank.trim text) = false ∧
          Command.parse (Blank.trim text) = .ok cmd ∧ cmd.call? = some call := by
        unfold Session.call? at hcall
        dsimp only at hcall
        split at hcall
        · cases hcall
        · next hskip =>
            split at hcall
            · cases hcall
            · next cmd hparse => exact ⟨cmd, by simpa using hskip, hparse, hcall⟩
      obtain ⟨n, hrun⟩ := run_perform hflight resolver now hcmd
      obtain ⟨k, hk⟩ := exists_run hrun rest
      refine ⟨k + 1, ?_⟩
      rw [hfirst, read, hcall]
      dsimp only
      rw [hfailed, if_neg (by simp), List.replicate_succ', after_append, hk]
      simp [after, beat, goOn, Session.step, hfailed, Session.readLine, hskip, hparse,
        Session.obey, Scheduler.execute, hcmd]

section Alone

variable (hg : g.bound = c.utilizationBound.toNat) (hsmall : g.bound < 2 ^ 64 - 1)

include hg hsmall

/-- However far a session goes on, the worker stays where it is. -/
theorem Steady.worker_alone (h : v.Steady g c) (k : ℕ)
    (hrep : ∀ t, v.Asks t →
      ((Scheduler.ofConfig c).firstRelease? now t.period).isSome = g.representable t.period) :
    (v.after g.resolver none (List.replicate k (.client now))).session.scheduler.worker =
      v.session.scheduler.worker := by
  induction k generalizing v with
  | zero => rfl
  | succ k ih =>
      have hbeat := h.follows_beat hg hsmall (.client now) fun _ heq => by
        cases heq
        exact hrep
      have hrest := ih hbeat.steady fun t ht => hrep t (hbeat.asks t ht)
      exact hrest.trans (h.worker_goesOn (h.continues now))

/-- **A session without the threads** is a live session of which only the session goes on. -/
theorem Steady.exists_alone (h : v.Steady g c) (hcall : v.call = none)
    (hworker : v.session.scheduler.worker = .idle)
    (hrep : ∀ t, v.Asks t →
      ((Scheduler.ofConfig c).firstRelease? now t.period).isSome = g.representable t.period) :
    ∃ k, v.after g.resolver none (List.replicate k (.client now)) =
      ⟨v.lines.foldl (Session.step g.resolver now none) v.session, none, []⟩ := by
  obtain ⟨q, call, lines⟩ := v
  dsimp only at hcall
  subst hcall
  induction lines generalizing q with
  | nil => exact ⟨0, rfl⟩
  | cons line rest ih =>
      obtain ⟨text, rfl⟩ := h.texts line (by simp)
      obtain ⟨k, hk⟩ := exists_line h.failed (h.system.resting hworker) g.resolver now text rest
      have hfollows := h.follows_after hg hsmall (List.replicate (k + 1) (.client now))
        fun at' hmem => by
          rw [Beat.client.inj (List.eq_of_mem_replicate hmem)]
          exact hrep
      have hidle := (h.worker_alone hg hsmall (k + 1) hrep).trans hworker
      rw [hk] at hfollows hidle
      obtain ⟨m, hm⟩ := ih _ hfollows.steady hidle fun t ht => hrep t (hfollows.asks t ht)
      refine ⟨k + 1 + m, ?_⟩
      rw [List.replicate_add, after_append, hk, hm]
      rfl

end Alone

/-! ### The beginning -/

/-- A session whose scheduler is fresh, or has been started, begins with an empty ledger. -/
theorem steady_start (c : Config) (started : Bool) {bytes : List UInt8} {texts : List (List Char)}
    (htexts : Lines.ofBytes bytes = texts.map some) :
    (start (if started then (Scheduler.ofConfig c).start.2 else Scheduler.ofConfig c)
      bytes).Steady g c := by
  refine ⟨?_, rfl, fun line hline => ?_, fun a ha => by cases ha⟩
  · have hidle := System.steady_idle c
    cases started with
    | true => exact hidle.start
    | false => exact hidle
  · rw [start, htexts] at hline
    obtain ⟨text, -, heq⟩ := List.mem_map.1 hline
    exact ⟨text, heq.symm⟩

/-- What it comes to is what the ledger makes of the lines. -/
theorem total_start (c : Config) (started : Bool) {bytes : List UInt8} {texts : List (List Char)}
    (htexts : Lines.ofBytes bytes = texts.map some) :
    (start (if started then (Scheduler.ofConfig c).start.2 else Scheduler.ofConfig c)
      bytes).total g = Ledger.run g texts := by
  have hlines : (texts.map some).reduceOption = texts := by
    simp [List.reduceOption]
  rw [total, start, htexts, hlines]
  cases started <;> rfl

end LiveSession

/-! ### The answer -/

/-- **A session gives an answer** to a text, at whichever of some times it looks at the clock. -/
structure Session.Timeless (resolver : Resolver) (times : Set Instant) (s : Scheduler)
    (text : String) (answer : Ledger) : Prop where
  /-- It does so alone. -/
  alone : ∀ now ∈ times,
    (Session.run resolver now none s text.toUTF8.toList).result = .ok answer.summary ∧
      (Session.run resolver now none s text.toUTF8.toList).out = answer.out
  /-- Whatever the threads do between its sections, it has given the answer when it ends. -/
  ended : ∀ beats : List Beat, (∀ now, .client now ∈ beats → now ∈ times) →
    ((LiveSession.start s text.toUTF8.toList).after resolver none beats).ended = true →
      ((LiveSession.start s text.toUTF8.toList).after resolver none beats).session.result =
          .ok answer.summary ∧
        ((LiveSession.start s text.toUTF8.toList).after resolver none beats).session.out =
          answer.out
  /-- And it ends, if neither it nor the worker is left out for good. -/
  ends : ∀ schedule : ℕ → Beat, (∀ n now, schedule n = .client now → now ∈ times) →
    Beat.Fair schedule → ∃ n, ∀ m, n ≤ m →
      ((LiveSession.start s text.toUTF8.toList).along resolver none schedule m).ended = true

namespace Session

/-- A session gives the answer of the ledger that it comes to. -/
theorem timeless_of_steady {g : Ledger.Rules} {c : Config} {times : Set Instant} {s : Scheduler}
    {text : String} {answer : Ledger}
    (hsteady : (LiveSession.start s text.toUTF8.toList).Steady g c)
    (hanswer : (LiveSession.start s text.toUTF8.toList).total g = answer)
    (hworker : s.worker = .idle) (hg : g.bound = c.utilizationBound.toNat)
    (hsmall : g.bound < 2 ^ 64 - 1)
    (hrep : ∀ now ∈ times, ∀ t, (LiveSession.start s text.toUTF8.toList).Asks t →
      ((Scheduler.ofConfig c).firstRelease? now t.period).isSome = g.representable t.period) :
    Timeless g.resolver times s text answer := by
  have hended : ∀ beats : List Beat, (∀ now, .client now ∈ beats → now ∈ times) → ∀ v,
      (LiveSession.start s text.toUTF8.toList).after g.resolver none beats = v →
        v.ended = true → v.session.result = .ok answer.summary ∧ v.session.out = answer.out := by
    rintro beats htimes v rfl hend
    have hfollows := hsteady.follows_after hg hsmall beats fun now hmem =>
      hrep now (htimes now hmem)
    have hresult := hfollows.steady.result_of_ended hend
    rwa [hfollows.total, hanswer] at hresult
  refine ⟨fun now hnow => ?_, fun beats htimes => hended beats htimes _ rfl,
    fun schedule htimes hfair => ?_⟩
  · obtain ⟨k, hk⟩ := hsteady.exists_alone hg hsmall rfl hworker (hrep now hnow)
    refine hended _ (fun later hmem => ?_) _ hk rfl
    rw [Beat.client.inj (List.eq_of_mem_replicate hmem)]
    exact hnow
  · refine LiveSession.exists_ended (g := g) (c := c) (fun n => ?_) hfair
    refine (hsteady.follows_after hg hsmall _ fun now hmem => hrep now ?_).steady
    obtain ⟨m, -, hm⟩ := List.mem_map.1 hmem
    exact htimes m now hm

/-- **Every session gives the answer of a ledger**, if its scheduler has no other client and the
clock tells the same of a period whenever the session looks. -/
theorem timeless {c : Config} {fresh : Scheduler} (hnew : Scheduler.new c = .ok fresh)
    (started : Bool) (resolver : Resolver) (representable : Duration → Bool) (times : Set Instant)
    (text : String)
    (hclock : ∀ t, .register t ∈ (Lines.ofBytes text.toUTF8.toList).filterMap Session.call? →
      ∀ now ∈ times, (fresh.firstRelease? now t.period).isSome = representable t.period) :
    Timeless resolver times (if started then fresh.start.2 else fresh) text
      (Ledger.run ⟨c.utilizationBound.toNat, representable, resolver⟩
        (text.toList.splitOn '\n')) := by
  obtain ⟨hvalid, rfl⟩ := Scheduler.new_eq_ok hnew
  have hsmall : c.utilizationBound.toNat < 2 ^ 64 - 1 := by
    have hle : c.utilizationBound.toNat ≤ 1000 := UInt64.le_iff_toNat_le.1 hvalid.bound.2
    omega
  let g : Ledger.Rules := ⟨c.utilizationBound.toNat, representable, resolver⟩
  obtain ⟨texts, htexts, hfold⟩ := Lines.exists_texts g text
  have htotal := LiveSession.total_start (g := g) c started htexts
  rw [Ledger.run, hfold Ledger.empty] at htotal
  refine timeless_of_steady (g := g) (LiveSession.steady_start c started htexts) htotal
    (by cases started <;> rfl) rfl hsmall ?_
  rintro now hnow t (hcall | hline)
  · cases hcall
  · exact hclock t hline now hnow

/-- A text with lines of every kind: remarks and blanks, a line that is no command, and commands
that are obeyed or refused. -/
def sample : String :=
  String.intercalate "\n"
    ["# two tasks", "R, 1, 10, 2.", "", " R, 1, 10, 2.\r", "R, 2, 10, 9.", "R, 3, 0, 1.", "X",
      "Y, 1.", "Y, 2.", "S", "D, 1.", "D, 1."]

/-- What a session answers to it. -/
def sampleAnswer : Ledger := ⟨[], ⟨4, 1, 5⟩, "Process # 1 details:\nPID:1\nP:10\nC:2\n"⟩

theorem timeless_sample :
    Scheduler.new Config.default = .ok (Scheduler.ofConfig Config.default) ∧
      Timeless (fun id => some ⟨id.number⟩) {Instant.start}
        (Scheduler.ofConfig Config.default).start.2 sample sampleAnswer ∧
      ∃ n, ∀ m, n ≤ m → ((LiveSession.start (Scheduler.ofConfig Config.default).start.2
        sample.toUTF8.toList).along (fun id => some ⟨id.number⟩) none
          (Beat.inTurn Instant.start) m).ended = true := by
  have hanswer : Ledger.run ⟨693, fun p => ((Scheduler.ofConfig Config.default).firstRelease?
      Instant.start p).isSome, fun id => some ⟨id.number⟩⟩ (sample.toList.splitOn '\n') =
        sampleAnswer := by decide +kernel
  have htimeless : Timeless (fun id => some ⟨id.number⟩) {Instant.start}
      (Scheduler.ofConfig Config.default).start.2 sample sampleAnswer := by
    rw [← hanswer]
    refine timeless (c := Config.default) rfl true _ _ {Instant.start} sample fun t _ now hnow => ?_
    rw [Set.mem_singleton_iff.1 hnow]
  refine ⟨rfl, htimeless, htimeless.ends _ (fun n now hbeat => ?_) (Beat.fair_inTurn _)⟩
  -- The only beats of the session are at the beginning of time.
  unfold Beat.inTurn at hbeat
  split at hbeat <;> cases hbeat
  rfl

end Session

end RateMonotonic
