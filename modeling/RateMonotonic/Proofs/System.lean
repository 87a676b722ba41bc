/-
**The scheduler with everybody at work**: clients in their calls, the dispatcher loop, the timer
worker.

An action lets a client begin a call, a call take its next section, or one of the two threads take
its next step; one that cannot be taken leaves everything alone.  A run is any list of actions, so
it is any interleaving of any number of calls.  At every moment at most one call is inside the
registry.

Main definitions:
* `System`, `Action`, `System.act`, `System.after` — the state, and runs;
* `System.Acts` — what an action can do;
* `System.Kept` — the invariant of every run;
* `System.Since` — what has held ever since an action of a run.

Main results:
* `System.Kept.act`, `System.Kept.after` — **every action keeps the invariant**;
* `System.Kept.invariant`, `System.Kept.history` — so what every action keeps on top of it holds
  after every run, and what every action adds to the history holds of every run;
* `System.Kept.complete_after` — and every ready task stays queued, while numbers last.
-/

import RateMonotonic.Proofs.Runs
import RateMonotonic.Proofs.Sections

set_option relaxedAutoImplicit false
set_option autoImplicit false

namespace RateMonotonic

/-! ### The system -/

/-- A scheduler with the calls that clients have begun. -/
structure System where
  /-- What everybody shares. -/
  scheduler : Scheduler
  /-- What remains of every call. -/
  calls : List Activity

/-- What can happen next. -/
inductive Action where
  | invoke (c : Call)
  | advance (i : ℕ) (resolver : Resolver) (now : Instant)
  | loop
  | worker (now : Instant)

namespace System

/-- A scheduler that nobody has called yet. -/
def idle (s : Scheduler) : System := ⟨s, []⟩

/-- The system after an action; one that cannot be taken changes nothing. -/
def act (y : System) : Action → System
  -- Nobody but the loop dispatches.
  | .invoke .dispatch => y
  | .invoke c => { y with calls := y.calls ++ [.call c] }
  | .advance i resolver now =>
      match y.calls[i]? with
      | none => y
      | some a =>
          match a.step y.scheduler resolver now with
          | none => y
          | some (next, rest) => ⟨next, y.calls.set i rest⟩
  | .loop => { y with scheduler := y.scheduler.loopStep.getD y.scheduler }
  | .worker now => { y with scheduler := (y.scheduler.workerStep now).getD y.scheduler }

/-- The system after a run of actions. -/
def after (y : System) (run : List Action) : System := run.foldl act y

@[simp] theorem after_nil (y : System) : y.after [] = y := rfl

@[simp] theorem after_cons (y : System) (m : Action) (run : List Action) :
    y.after (m :: run) = (y.act m).after run := rfl

theorem after_append (y : System) (run more : List Action) :
    y.after (run ++ more) = (y.after run).after more := List.foldl_append

/-- A run ends with what its last action does. -/
theorem after_concat (y : System) (run : List Action) (m : Action) :
    y.after (run ++ [m]) = (y.after run).act m := after_append y run [m]

/-- A run goes on from where one of its actions has led. -/
theorem after_middle (y : System) (before : List Action) (m : Action) (since : List Action) :
    y.after (before ++ m :: since) = (y.after (before ++ [m])).after since := by
  rw [← after_append]
  simp

/-- What every run keeps. -/
structure Kept (y : System) : Prop where
  /-- Queue and slot agree with the records. -/
  sound : y.scheduler.schedule.Sound
  /-- No call is a round of the dispatcher by hand. -/
  proper : ∀ a ∈ y.calls, a.proper = true
  /-- As many calls are inside the registry as its state says. -/
  exclusive : y.calls.countP Activity.holds = y.scheduler.registry.held.toNat
  /-- A call inside can rely on what it has found out. -/
  fits : ∀ a ∈ y.calls, a.holds = true → a.Fits y.scheduler
  /-- Registry and schedule agree while nobody is inside. -/
  agrees : y.scheduler.registry.held = false → y.scheduler.Matches none

/-- What an action can do. -/
inductive Acts (y : System) : Action → System → Prop where
  | stutter {m : Action} (idle : m = .loop → y.scheduler.loopStep = none) : Acts y m y
  | invoke {c : Call} (h : (Activity.call c).proper = true) :
      Acts y (.invoke c) { y with calls := y.calls ++ [.call c] }
  | advance {i : ℕ} {resolver : Resolver} {now : Instant} {l r : List Activity}
      {a rest : Activity} {next : Scheduler} (calls : y.calls = l ++ a :: r)
      (h : a.Advances y.scheduler next rest) :
      Acts y (.advance i resolver now) ⟨next, l ++ rest :: r⟩
  | loop {next : Scheduler} (h : y.scheduler.LoopSteps next) : Acts y .loop ⟨next, y.calls⟩
  | worker {now : Instant} {next : Scheduler} (h : y.scheduler.WorkerSteps next) :
      Acts y (.worker now) ⟨next, y.calls⟩

/-- An advance leaves everything alone, or one of the calls takes its next section. -/
theorem act_advance (y : System) (i : ℕ) (resolver : Resolver) (now : Instant) :
    y.act (.advance i resolver now) = y ∨
      ∃ l a r next rest, y.calls = l ++ a :: r ∧ y.calls[i]? = some a ∧
        a.step y.scheduler resolver now = some (next, rest) ∧
        y.act (.advance i resolver now) = ⟨next, l ++ rest :: r⟩ := by
  simp only [act]
  split
  · exact Or.inl rfl
  · next a hi =>
      split
      · exact Or.inl rfl
      · next next rest hstep =>
          obtain ⟨hlt, hget⟩ := List.getElem?_eq_some_iff.1 hi
          obtain ⟨l, r, hcalls, -, hset⟩ : ∃ l r, y.calls = l ++ y.calls[i] :: r ∧
              l.length = i ∧ y.calls.set i rest = l ++ rest :: r := List.exists_of_set hlt
          rw [hget] at hcalls
          exact Or.inr ⟨l, a, r, next, rest, hcalls, hi, hstep, by rw [hset]⟩

/-- **What an action does to one call**: it leaves the call alone, makes it, or takes its next
section. -/
theorem getElem?_act (y : System) (m : Action) (i : ℕ) :
    ((y.act m).calls[i]? = y.calls[i]? ∧
        ∀ resolver now, m = .advance i resolver now → y.act m = y) ∨
      (∃ c, m = .invoke c ∧ y.calls[i]? = none ∧ (y.act m).calls[i]? = some (.call c)) ∨
      ∃ resolver now a next rest, m = .advance i resolver now ∧ y.calls[i]? = some a ∧
        a.step y.scheduler resolver now = some (next, rest) ∧
        y.act m = ⟨next, y.calls.set i rest⟩ := by
  cases m with
  | invoke c =>
      have hcalls : y.act (.invoke c) = y ∨ (y.act (.invoke c)).calls = y.calls ++ [.call c] := by
        cases c <;> first | exact Or.inl rfl | exact Or.inr rfl
      rcases hcalls with heq | hcalls
      · exact Or.inl ⟨by rw [heq], fun _ _ hm => by cases hm⟩
      · by_cases hi : i = y.calls.length
        · exact Or.inr (Or.inl ⟨c, rfl, by simp [hi], by simp [hcalls, hi]⟩)
        · refine Or.inl ⟨?_, fun _ _ hm => by cases hm⟩
          rw [hcalls]
          rcases Nat.lt_or_gt_of_ne hi with hlt | hgt
          · exact List.getElem?_append_left hlt
          · rw [List.getElem?_eq_none (by simp; omega), List.getElem?_eq_none (by omega)]
  | advance j resolver now =>
      cases hj : y.calls[j]? with
      | none =>
          have heq : y.act (.advance j resolver now) = y := by simp [act, hj]
          exact Or.inl ⟨by rw [heq], fun _ _ _ => heq⟩
      | some a =>
          cases hstep : a.step y.scheduler resolver now with
          | none =>
              have heq : y.act (.advance j resolver now) = y := by simp [act, hj, hstep]
              exact Or.inl ⟨by rw [heq], fun _ _ _ => heq⟩
          | some r =>
              obtain ⟨next, rest⟩ := r
              have heq : y.act (.advance j resolver now) = ⟨next, y.calls.set j rest⟩ := by
                simp [act, hj, hstep]
              by_cases hij : j = i
              · subst hij
                exact Or.inr (Or.inr ⟨resolver, now, a, next, rest, rfl, hj, hstep, heq⟩)
              · refine Or.inl ⟨by rw [heq]; exact List.getElem?_set_ne hij, fun _ _ hm => ?_⟩
                cases hm
                exact absurd rfl hij
  | loop => exact Or.inl ⟨rfl, fun _ _ hm => by cases hm⟩
  | worker now => exact Or.inl ⟨rfl, fun _ _ hm => by cases hm⟩

/-- **An action does one of these things.** -/
theorem acts_act {y : System} (hy : ∀ a ∈ y.calls, a.proper = true) (m : Action) :
    y.Acts m (y.act m) := by
  cases m with
  | invoke c => cases c <;> first | exact .stutter (by simp) | exact .invoke rfl
  | advance i resolver now =>
      rcases act_advance y i resolver now with heq | ⟨l, a, r, next, rest, hcalls, -, hstep, heq⟩
      · rw [heq]
        exact .stutter (by simp)
      · rw [heq]
        exact .advance hcalls (Activity.advances_of_step (hy a (by simp [hcalls])) hstep)
  | loop =>
      simp only [act]
      cases h : y.scheduler.loopStep with
      | none => exact .stutter fun _ => h
      | some next => exact .loop (Scheduler.loopSteps_of_loopStep h)
  | worker now =>
      simp only [act]
      cases h : y.scheduler.workerStep now with
      | none => exact .stutter (by simp)
      | some next => exact .worker (Scheduler.workerSteps_of_workerStep h)

/-! ### The invariant -/

theorem kept_idle (c : Config) : (idle (Scheduler.ofConfig c)).Kept where
  sound := Schedule.sound_empty
  proper := by simp [idle]
  exclusive := rfl
  fits := by simp [idle]
  agrees := fun _ => (Scheduler.kept_ofConfig c).agrees

/-- Calls can rely on what they have found out as long as what is registered stays as it is. -/
theorem fits_of_same {s next : Scheduler} {a : Activity} (h : a.Fits s)
    (hheld : next.registry.held = s.registry.held)
    (hentries : next.registry.entries = s.registry.entries)
    (hsame : s.schedule.SameEntries next.schedule) : a.Fits next where
  held := hheld.trans h.held
  agrees := h.agrees.of_sameEntries hentries hsame
  listed := by
    intro id hid
    have hlisted := h.listed id hid
    simp only [Registry.contains, hentries] at hlisted ⊢
    exact hlisted

/-- A step of a thread keeps the invariant. -/
theorem Kept.thread {y : System} (h : y.Kept) {next : Scheduler}
    (hk : Scheduler.Keeps y.scheduler next) : Kept ⟨next, y.calls⟩ where
  sound := hk.sound
  proper := h.proper
  exclusive := by
    rw [hk.registry]
    exact h.exclusive
  fits := fun a ha hin =>
    fits_of_same (h.fits a ha hin) (by rw [hk.registry]) (by rw [hk.registry]) hk.same
  agrees := by
    intro hfree
    rw [hk.registry] at hfree
    exact (h.agrees hfree).of_sameEntries (by rw [hk.registry]) hk.same

/-- All calls have a property if one call has it and the others do. -/
theorem forall_calls_iff {P : Activity → Prop} {l r : List Activity} {a : Activity} :
    (∀ b ∈ l ++ a :: r, P b) ↔ P a ∧ ∀ b, b ∈ l ∨ b ∈ r → P b := by
  constructor
  · intro h
    refine ⟨h a (by simp), fun b hb => h b ?_⟩
    rcases hb with hb | hb <;> simp [hb]
  · rintro ⟨ha, hothers⟩ b hb
    simp only [List.mem_append, List.mem_cons] at hb
    rcases hb with hb | rfl | hb
    · exact hothers b (Or.inl hb)
    · exact ha
    · exact hothers b (Or.inr hb)

/-- Where everybody else is outside, the invariant is about one call. -/
theorem kept_of_alone {l r : List Activity} {rest : Activity} {next : Scheduler}
    (sound : next.schedule.Sound) (proper : ∀ b ∈ l ++ rest :: r, b.proper = true)
    (others : ∀ b, b ∈ l ∨ b ∈ r → b.holds = false)
    (own : (rest.holds = true ∧ rest.Fits next) ∨
      (rest.holds = false ∧ next.registry.held = false ∧ next.Matches none)) :
    Kept ⟨next, l ++ rest :: r⟩ where
  sound := sound
  proper := proper
  exclusive := by
    have hl : l.countP Activity.holds = 0 :=
      List.countP_eq_zero.2 fun b hb => by simp [others b (Or.inl hb)]
    have hr : r.countP Activity.holds = 0 :=
      List.countP_eq_zero.2 fun b hb => by simp [others b (Or.inr hb)]
    rw [List.countP_append, List.countP_cons, hl, hr]
    rcases own with ⟨hin, hfits⟩ | ⟨hout, hfree, -⟩
    · simp [hin, hfits.held]
    · simp [hout, hfree]
  fits := by
    refine forall_calls_iff.2 ⟨fun hin => ?_, fun b hb hin => ?_⟩
    · rcases own with ⟨-, hfits⟩ | ⟨hout, -, -⟩
      · exact hfits
      · simp [hout] at hin
    · simp [others b hb] at hin
  agrees := by
    intro hfree
    rcases own with ⟨-, hfits⟩ | ⟨-, -, hm⟩
    · rw [hfits.held] at hfree
      cases hfree
    · exact hm

/-- A call inside the registry has nobody beside it. -/
theorem Kept.outside_of_other {y : System} (h : y.Kept) {l r : List Activity} {a b : Activity}
    (hcalls : y.calls = l ++ a :: r) (ha : a.holds = true) (hb : b ∈ l ∨ b ∈ r) :
    b.holds = false := by
  have hheld := (h.fits a (by simp [hcalls]) ha).held
  have hcount := h.exclusive
  rw [hcalls, List.countP_append, List.countP_cons, hheld] at hcount
  simp only [ha, if_true, Bool.toNat_true] at hcount
  have hl : l.countP Activity.holds = 0 := by omega
  have hr : r.countP Activity.holds = 0 := by omega
  rcases hb with hb | hb
  · simpa using List.countP_eq_zero.1 hl b hb
  · simpa using List.countP_eq_zero.1 hr b hb

/-- Nobody is inside a free registry. -/
theorem Kept.outside_of_free {y : System} (h : y.Kept) (hfree : y.scheduler.registry.held = false)
    {b : Activity} (hb : b ∈ y.calls) : b.holds = false := by
  have hcount := h.exclusive
  rw [hfree, Bool.toNat_false] at hcount
  simpa using List.countP_eq_zero.1 hcount b hb

/-- Registry and schedule agree in every state, up to a task that a call is taking away. -/
theorem Kept.exists_matches {y : System} (h : y.Kept) :
    ∃ leaving, y.scheduler.Matches leaving ∧
      ∀ id, leaving = some id → ∃ freed, .strike id freed ∈ y.calls := by
  cases hheld : y.scheduler.registry.held with
  | false => exact ⟨none, h.agrees hheld, by simp⟩
  | true =>
      have hcount := h.exclusive
      rw [hheld, Bool.toNat_true] at hcount
      obtain ⟨a, ha, hin⟩ := List.countP_pos_iff.1 (show 0 < y.calls.countP Activity.holds by omega)
      refine ⟨a.leaving, (h.fits a ha hin).agrees, fun id hleaving => ?_⟩
      cases a with
      | strike j freed =>
          cases hleaving
          exact ⟨freed, ha⟩
      | _ => cases hleaving

/-- The next section of a call keeps the invariant. -/
theorem Kept.advance {y : System} (h : y.Kept) {l r : List Activity} {a rest : Activity}
    {next : Scheduler} (hcalls : y.calls = l ++ a :: r) (ha : a.Advances y.scheduler next rest) :
    Kept ⟨next, l ++ rest :: r⟩ := by
  have hmem : a ∈ y.calls := by simp [hcalls]
  have hothers : ∀ b, b ∈ l ∨ b ∈ r → b ∈ y.calls := by
    rintro b (hb | hb) <;> simp [hcalls, hb]
  have hproper : ∀ b ∈ l ++ rest :: r, b.proper = true :=
    forall_calls_iff.2 ⟨ha.proper (h.proper a hmem), fun b hb => h.proper b (hothers b hb)⟩
  have hsound : next.schedule.Sound := h.sound.moves (ha.moves (h.fits a hmem))
  cases hin : a.holds with
  | true =>
      have hown := ha.inside hin (h.fits a hmem hin)
      exact kept_of_alone hsound hproper (fun b hb => h.outside_of_other hcalls hin hb) hown
  | false =>
      obtain ⟨hentries, hsame⟩ := ha.outside hin
      rcases ha.enters (h.proper a hmem) hin with ⟨hout, hheld⟩ | ⟨hrest, hfree, hfits⟩
      · refine ⟨hsound, hproper, ?_, ?_, ?_⟩
        · have hcount := h.exclusive
          rw [hcalls, List.countP_append, List.countP_cons, hin] at hcount
          rw [List.countP_append, List.countP_cons, hheld, ← hcount, hout]
        · refine forall_calls_iff.2 ⟨fun hin' => ?_, fun b hb hbin => ?_⟩
          · rw [hout] at hin'
            cases hin'
          · exact fits_of_same (h.fits b (hothers b hb) hbin) hheld hentries hsame
        · intro hfree
          rw [hheld] at hfree
          exact (h.agrees hfree).of_sameEntries hentries hsame
      · have hown := hfits (h.agrees hfree)
        exact kept_of_alone hsound hproper (fun b hb => h.outside_of_free hfree (hothers b hb))
          (Or.inl ⟨hrest, hown⟩)

/-- **Every action keeps the invariant.** -/
theorem Kept.act {y : System} (h : y.Kept) (m : Action) : (y.act m).Kept := by
  have hacts := acts_act h.proper m
  generalize y.act m = next at hacts
  cases hacts with
  | stutter _ => exact h
  | @invoke c hc =>
      refine ⟨h.sound, ?_, ?_, ?_, h.agrees⟩
      · intro a ha
        rcases List.mem_append.1 ha with ha | ha
        · exact h.proper a ha
        · rw [List.mem_singleton.1 ha]
          exact hc
      · rw [List.countP_append]
        exact h.exclusive
      · intro a ha hin
        rcases List.mem_append.1 ha with ha | ha
        · exact h.fits a ha hin
        · rw [List.mem_singleton.1 ha] at hin
          cases hin
  | advance hcalls ha => exact h.advance hcalls ha
  | loop hloop => exact h.thread (hloop.keeps h.sound)
  | worker hworker => exact h.thread (hworker.keeps h.sound)

/-- Every state of a run has the invariant. -/
theorem Kept.after {y : System} (h : y.Kept) (run : List Action) : (y.after run).Kept := by
  induction run generalizing y with
  | nil => rwa [after_nil]
  | cons m run ih =>
      rw [after_cons]
      exact ih (h.act m)

/-- Whatever every action of a run keeps holds after the run. -/
theorem Kept.invariant {P : System → Prop} {y : System} (hy : y.Kept) (h : P y) (run : List Action)
    (hact : ∀ m ∈ run, ∀ z : System, z.Kept → P z → P (z.act m)) : P (y.after run) := by
  induction run generalizing y with
  | nil => exact h
  | cons m run ih =>
      have hnext := hact m List.mem_cons_self y hy h
      exact ih (hy.act m) hnext fun k hk => hact k (List.mem_cons_of_mem m hk)

/-- An action touches the schedule once at most. -/
theorem Kept.moves {y : System} (h : y.Kept) (m : Action) :
    y.scheduler.schedule.Moves (y.act m).scheduler.schedule := by
  have hacts := acts_act h.proper m
  generalize y.act m = next at hacts
  cases hacts with
  | stutter _ => exact .stay
  | invoke _ => exact .stay
  | advance hcalls ha => exact ha.moves (h.fits _ (by simp [hcalls]))
  | loop hloop => exact hloop.moves
  | worker hworker => exact hworker.moves

/-- Every action keeps the queue complete while numbers last. -/
theorem Kept.complete_act {y : System} {n : ℕ} (h : y.Kept)
    (hc : y.scheduler.schedule.Complete n) (hn : n + 1 < 2 ^ 63) (m : Action) :
    (y.act m).scheduler.schedule.Complete (n + 1) :=
  hc.moves h.sound hn (h.moves m)

/-- Every ready task of a run is queued while numbers last. -/
theorem Kept.complete_after {y : System} {n : ℕ} (h : y.Kept)
    (hc : y.scheduler.schedule.Complete n) (run : List Action) (hn : n + run.length < 2 ^ 63) :
    (y.after run).scheduler.schedule.Complete (n + run.length) := by
  induction run generalizing y n with
  | nil => rwa [after_nil]
  | cons m run ih =>
      simp only [List.length_cons, after_cons] at hn ⊢
      have hrest := ih (h.act m) (h.complete_act hc (by omega) m) (by omega)
      rw [show n + (run.length + 1) = n + 1 + run.length by omega]
      exact hrest

/-! ### Parts of runs -/

/-- In a run, something has held ever since an action. -/
def Since (y : System) (P : System → Prop) (before : List Action) (m : Action)
    (since : List Action) : Prop :=
  ∀ more, more <+: since → P (y.after (before ++ m :: more))

variable {y : System} {P : System → Prop} {before since : List Action} {m : Action}

theorem since_nil (h : P (y.after (before ++ [m]))) : y.Since P before m [] := by
  intro more hmore
  rw [List.prefix_nil.1 hmore]
  exact h

theorem Since.snoc (h : y.Since P before m since) {k : Action}
    (hp : P (y.after (before ++ m :: since ++ [k]))) : y.Since P before m (since ++ [k]) := by
  intro more hmore
  rcases List.prefix_concat_iff.1 hmore with rfl | hmore
  · rwa [List.append_assoc] at hp
  · exact h more hmore

/-- Whatever every action of a run adds to its history holds of the run. -/
theorem Kept.history (hy : y.Kept) {Q : List Action → Prop} (run : List Action) (h : Q [])
    (hact : ∀ before m, before ++ [m] <+: run → (y.after before).Kept → Q before →
      Q (before ++ [m])) : Q run := by
  -- By induction on what is still to come.
  have hgo : ∀ rest before, before ++ rest = run → Q before → Q run := by
    intro rest
    induction rest with
    | nil =>
        intro before heq hq
        rw [List.append_nil] at heq
        exact heq ▸ hq
    | cons m rest ih =>
        intro before heq hq
        have hend : before ++ [m] ++ rest = run := by simpa using heq
        exact ih (before ++ [m]) hend (hact before m ⟨rest, hend⟩ (hy.after before) hq)
  exact hgo run [] rfl h

/-! ### Runs to look at -/

/-- A call takes so many sections in a row, at one instant. -/
def sections (i n : ℕ) (now : Instant) : List Action :=
  List.replicate n (.advance i (fun id => some ⟨id.number⟩) now)

end System

end RateMonotonic
