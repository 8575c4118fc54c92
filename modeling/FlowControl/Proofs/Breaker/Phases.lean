import FlowControl.Proofs.Breaker.Circuit

/-!
# The phases of a run

An open breaker was opened by an outcome, at the reading that its phase carries.  Until
its delay has passed since then it refuses every permit, says exactly how long is
left, and changes in nothing.  `NextPhase` lists the ways from one phase to the next;
no act changes the phase in another way, and each change counts the generation up by
one, around the end of its range if need be.

The delay is counted in whole milliseconds and as far as 64 bits reach.  A delay of less
than one millisecond is over at once, even if the clock has stepped back, and a delay
that 64 bits do not count is cut off.
-/

namespace FlowControl

/-- Does a phase go on as another one?  Windows and slots may change, the time of opening does
not. -/
def Phase.Continues : Phase → Phase → Prop
  | .closed _, .closed _ | .halfOpen .., .halfOpen .. => True
  | .opened since, .opened since' => since' = since
  | _, _ => False

theorem Phase.Continues.refl (phase : Phase) : phase.Continues phase := by
  cases phase with
  | closed window => trivial
  | opened since => exact Eq.refl since
  | halfOpen window inFlight => trivial

theorem Phase.Continues.eq_opened {phase : Phase} {since : UInt64}
    (h : phase.Continues (.opened since)) : phase = .opened since := by
  cases phase with
  | closed window => cases h
  | opened since' => exact congrArg Phase.opened (Eq.symm h)
  | halfOpen window inFlight => cases h

namespace Circuit

/-- The ways from one phase to the next, by an act at a reading; the next phase stands as it
begins. -/
inductive NextPhase (config : BreakerConfig) (now : UInt64) : Phase → Act → Phase → Prop
  | trips (window : OutcomeWindow) (k : Nat) (failed : Bool) :
      NextPhase config now (.closed window) (.settle k (some failed)) (.opened now)
  | relapses (window : OutcomeWindow) (inFlight k : Nat) (failed : Bool) :
      NextPhase config now (.halfOpen window inFlight) (.settle k (some failed)) (.opened now)
  | recovers (window : OutcomeWindow) (inFlight k : Nat) (failed : Bool) :
      NextPhase config now (.halfOpen window inFlight) (.settle k (some failed))
        (.closed (.empty config.failure.capacity))
  | wakes (since : UInt64) (a : Act) (ha : a = .acquire ∨ a = .observe)
      (hlate : config.openMillis ≤ now.toNat - since.toNat) :
      NextPhase config now (.opened since) a (.halfOpen (.empty config.success.capacity) 0)
  | resets (phase : Phase) :
      NextPhase config now phase .reset (.closed (.empty config.failure.capacity))

variable {c c' : Circuit} {a : Act} {acts : List Act} {config : BreakerConfig} {since : UInt64}

/-- The act goes on with the phase at hand. -/
structure GoesOn (c c' : Circuit) : Prop where
  generation : c'.breaker.generation = c.breaker.generation
  phases : c'.phases = c.phases
  continues : c.breaker.phase.Continues c'.breaker.phase

/-- The act begins a phase.  If it asks for a permit, it takes the first slot of the phase. -/
structure Begins (c : Circuit) (a : Act) (c' : Circuit) (begun : Phase) : Prop where
  generation : c'.breaker.generation = c.breaker.generation + 1
  phases : c'.phases = c.phases + 1
  phase : c'.breaker.phase = begun ∨
    a = .acquire ∧ ∃ window, begun = .halfOpen window 0 ∧ c'.breaker.phase = .halfOpen window 1 ∧
      c'.tickets = c.tickets ++ [⟨⟨c.breaker.generation + 1, true⟩, c.phases + 1, true⟩]

theorem GoesOn.giveBack (h : GoesOn c c') (k : Nat) : GoesOn c (c'.giveBack k) where
  generation := by rw [breaker_giveBack, h.generation]
  phases := by rw [phases_giveBack, h.phases]
  continues := by rw [breaker_giveBack]; exact h.continues

theorem GoesOn.refl (c : Circuit) : GoesOn c c := ⟨rfl, rfl, .refl _⟩

theorem goesOn_inPhase {phase : Phase} (h : c.breaker.phase.Continues phase) :
    GoesOn c (c.inPhase phase) := ⟨rfl, rfl, h⟩

theorem begins_enter (c : Circuit) (a : Act) (phase : Phase) : Begins c a (c.enter phase) phase :=
  ⟨rfl, rfl, .inl rfl⟩

theorem begins_enter_giveBack (c : Circuit) (a : Act) (phase : Phase) (k : Nat) :
    Begins c a ((c.enter phase).giveBack k) phase where
  generation := by rw [breaker_giveBack]; rfl
  phases := by rw [phases_giveBack]; rfl
  phase := .inl (by rw [breaker_giveBack]; rfl)

/-- A half-open phase that has just begun has a slot for the permit that is asked for. -/
theorem Effect.eq_of_woken (hcapacity : 0 < c.breaker.config.success.capacity)
    (h : Effect (c.enter (Breaker.freshHalfOpen c.breaker.config)) .acquire c') :
    c' = ((c.enter (Breaker.freshHalfOpen c.breaker.config)).inPhase
      (.halfOpen (.empty c.breaker.config.success.capacity) 1)).issue
        ⟨c.breaker.generation + 1, true⟩ := by
  cases h with
  | admits _ hphase => cases hphase
  | rejects _ hphase => cases hphase
  | full _ hphase hfull =>
      cases hphase
      exact absurd hcapacity (Nat.not_lt.mpr hfull)
  | probes _ hphase =>
      cases hphase
      rfl
  | wakes hphase => cases hphase

/-- Every act goes on with the phase at hand or begins one of those that may come next. -/
theorem Effect.phase_cases (heffect : c.Effect a c') (hvalid : c.breaker.config.check = .ok ()) :
    GoesOn c c' ∨
      ∃ begun, NextPhase c.breaker.config c.now c.breaker.phase a begun ∧ Begins c a c' begun := by
  cases heffect with
  | clock => exact .inl ⟨rfl, rfl, .refl _⟩
  | looks | rejects | full | missing => exact .inl (.refl c)
  | admits => exact .inl ⟨rfl, rfl, .refl _⟩
  | probes _ hphase =>
      refine .inl ⟨rfl, rfl, ?_⟩
      rw [hphase]
      trivial
  | late | idle | forgets => exact .inl ((GoesOn.refl c).giveBack _)
  | counts _ _ _ hphase =>
      refine .inl ((goesOn_inPhase ?_).giveBack _)
      rw [hphase]
      trivial
  | frees _ _ _ hphase | weighs _ _ _ hphase =>
      refine .inl ((goesOn_inPhase ?_).giveBack _)
      rw [hphase]
      trivial
  | resets => exact .inr ⟨_, .resets _, begins_enter c _ _⟩
  | stirs _ hphase hlate =>
      rw [hphase]
      exact .inr ⟨_, .wakes _ _ (.inr rfl) hlate, begins_enter c _ _⟩
  | wakes hphase hlate hthen =>
      -- A valid configuration has a slot, so the permit is not refused in the new phase.
      obtain ⟨-, ⟨hst, hsc⟩, -⟩ := BreakerConfig.check_eq_ok_iff.mp hvalid
      rw [hphase, hthen.eq_of_woken (Nat.lt_of_lt_of_le hst hsc)]
      exact .inr ⟨_, .wakes _ _ (.inl rfl) hlate, rfl, rfl, .inr ⟨rfl, _, rfl, rfl, rfl⟩⟩
  | trips _ _ _ hphase =>
      rw [hphase]
      exact .inr ⟨_, .trips _ _ _, begins_enter_giveBack c _ _ _⟩
  | recovers _ _ _ hphase =>
      rw [hphase]
      exact .inr ⟨_, .recovers _ _ _ _, begins_enter_giveBack c _ _ _⟩
  | relapses _ _ _ hphase =>
      rw [hphase]
      exact .inr ⟨_, .relapses _ _ _ _, begins_enter_giveBack c _ _ _⟩

/-- If an act leaves the breaker open, it was open before, or an outcome opened it just now. -/
theorem opened_step (hvalid : c.breaker.config.check = .ok ())
    (hphase : (c.step a).breaker.phase = .opened since) :
    (c.breaker.phase = .opened since ∧ (c.step a).phases = c.phases) ∨
      (∃ k failed, a = .settle k (some failed)) ∧ c.now = since ∧
        (c.step a).phases = c.phases + 1 := by
  rcases (effect_step c a).phase_cases hvalid with hgoes | ⟨begun, hnext, hbegins⟩
  · have hcontinues := hgoes.continues
    rw [hphase] at hcontinues
    exact .inl ⟨hcontinues.eq_opened, hgoes.phases⟩
  · rcases hbegins.phase with hbegun | ⟨-, window, -, hhalfOpen, -⟩
    · rw [hphase] at hbegun
      subst hbegun
      right
      generalize c.breaker.phase = before at hnext
      cases hnext with
      | trips window k failed => exact ⟨⟨k, failed, rfl⟩, rfl, hbegins.phases⟩
      | relapses window inFlight k failed => exact ⟨⟨k, failed, rfl⟩, rfl, hbegins.phases⟩
    · rw [hphase] at hhalfOpen
      cases hhalfOpen

/-- If a run ends open, then it was open all along, or an outcome opened it, at the reading that
the phase carries, and no other phase has begun since. -/
theorem opened_run (hvalid : c.breaker.config.check = .ok ())
    (hphase : (c.run acts).breaker.phase = .opened since) :
    (c.breaker.phase = .opened since ∧ (c.run acts).phases = c.phases) ∨
      ∃ before k failed after, acts = before ++ .settle k (some failed) :: after ∧
        (c.run before).now = since ∧ (c.run before).phases + 1 = (c.run acts).phases ∧
        (c.run (before ++ [.settle k (some failed)])).phases = (c.run acts).phases := by
  -- If the rest of the run opened the breaker, so did the run; else it was open after the first
  -- act, which then opened it or found it open.
  induction acts generalizing c with
  | nil => exact .inl ⟨hphase, rfl⟩
  | cons a acts ih =>
      have hconfig := (effect_step c a).config_eq
      rcases ih (c := c.step a) (hconfig ▸ hvalid) hphase with
        ⟨hhere, hphases⟩ | ⟨before, k, failed, after, rfl, hrest⟩
      · rw [run_cons, hphases]
        rcases opened_step hvalid hhere with ⟨hopened, hsame⟩ | ⟨⟨k, failed, rfl⟩, hnow, hnext⟩
        · exact .inl ⟨hopened, hsame⟩
        · exact .inr ⟨[], k, failed, acts, rfl, hnow, hnext.symm, rfl⟩
      · exact .inr ⟨a :: before, k, failed, after, rfl, hrest⟩

/-- Until the delay has passed, a permit is refused, with the time that is left, and nothing
changes. -/
theorem acquire_of_early (hphase : c.breaker.phase = .opened since)
    (hearly : c.now.toNat - since.toNat < c.breaker.config.openMillis) :
    ∃ remaining, c.perform .acquire = ⟨.admission (.error remaining), c.breaker, []⟩ ∧
      remaining.nanos =
        (c.breaker.config.openMillis - (c.now.toNat - since.toNat)) * 1000000 ∧
      c.step .acquire = c := by
  have hanswer := Breaker.tryAcquire_of_early hphase hearly
  refine ⟨c.breaker.openRemaining since c.now, ?_, Breaker.nanos_openRemaining _ _ _, ?_⟩
  · simp [perform, Breaker.Step.map, hanswer]
  · rw [step_acquire_of_error (congrArg Breaker.Step.answer hanswer), hanswer, follow_breaker]

/-- The phases of a run.  An open phase was begun by an outcome at the reading it carries.  Before
its delay has passed, a permit is refused for exactly the time that is left, and nothing changes.
Every act goes on with the phase at hand, under the same generation, or begins one of the next
phases, fresh and under the next generation. -/
theorem phases_of_run (config : BreakerConfig) (hvalid : config.check = .ok ()) (now : UInt64)
    (acts : List Act) :
    let c₀ := start config now
    let c := c₀.run acts
    let delay := min config.openDelay.millis Word.maxNat
    (∀ since, c.breaker.phase = .opened since →
      (∃ before k failed after, acts = before ++ .settle k (some failed) :: after ∧
        (c₀.run before).now = since ∧ (c₀.run before).phases + 1 = c.phases ∧
        (c₀.run (before ++ [.settle k (some failed)])).phases = c.phases) ∧
      (c.now.toNat - since.toNat < delay →
        ∃ remaining, c.perform .acquire = ⟨.admission (.error remaining), c.breaker, []⟩ ∧
          remaining.nanos = (delay - (c.now.toNat - since.toNat)) * 1000000 ∧
          c.step .acquire = c)) ∧
    ∀ a, GoesOn c (c.step a) ∨
      ∃ begun, NextPhase config c.now c.breaker.phase a begun ∧ Begins c a (c.step a) begun := by
  intro c₀ c delay
  have hconfig : c.breaker.config = config := config_run c₀ acts
  refine ⟨?_, ?_⟩
  · intro since hphase
    refine ⟨?_, ?_⟩
    · rcases opened_run (c := c₀) hvalid hphase with ⟨hopened, -⟩ | hrecord
      · cases hopened
      · exact hrecord
    · intro hearly
      have hdelay : c.breaker.config.openMillis = delay := by rw [hconfig]; rfl
      rw [← hdelay] at hearly ⊢
      exact acquire_of_early hphase hearly
  · intro a
    have hcases := (effect_step c a).phase_cases (hconfig ▸ hvalid)
    rw [hconfig] at hcases
    exact hcases

/-- A breaker that opens at the first failure, for five seconds, refuses a permit after two. -/
theorem phases_of_run_two_seconds :
    let config : BreakerConfig := ⟨⟨1, 1⟩, ⟨1, 1⟩, .ofSecs 5⟩
    let acts : List Act := [.acquire, .settle 0 (some true), .setClock 2000]
    config.check = .ok () ∧ ((start config 0).run acts).breaker.phase = .opened 0 ∧
      ∃ remaining, ((start config 0).run acts).perform .acquire =
          ⟨.admission (.error remaining), ((start config 0).run acts).breaker, []⟩ ∧
        remaining.nanos = 3000000000 := by
  intro config acts
  have hphase : ((start config 0).run acts).breaker.phase = .opened 0 := by decide
  obtain ⟨hopened, -⟩ := phases_of_run config rfl 0 acts
  obtain ⟨-, hearly⟩ := hopened 0 hphase
  obtain ⟨remaining, hperform, hnanos, -⟩ := hearly (by decide)
  exact ⟨rfl, hphase, remaining, hperform, hnanos.trans (by decide)⟩

/-- The whole milliseconds of the delay do not tell when an open phase ends.  A delay of more of
them than 64 bits count leaves less time, and a delay of none is over on a clock that
has stepped back. -/
theorem opened_shorter_than_delay :
    let long : BreakerConfig := ⟨⟨1, 1⟩, ⟨1, 1⟩, .ofMillis 18446744073709551616⟩
    let short : BreakerConfig := ⟨⟨1, 1⟩, ⟨1, 1⟩, .ofNanos 1⟩
    let c := (start long 0).run [.acquire, .settle 0 (some true)]
    let d := (start short 10).run [.acquire, .settle 0 (some true), .setClock 5]
    (long.check = .ok () ∧ c.breaker.phase = .opened 0 ∧
      c.now.toNat - 0 < long.openDelay.millis ∧
      ∃ remaining, (c.perform .acquire).answer = .admission (.error remaining) ∧
        remaining.nanos ≠ (long.openDelay.millis - (c.now.toNat - 0)) * 1000000) ∧
    (short.check = .ok () ∧ d.breaker.phase = .opened 10 ∧
      (d.step .observe).breaker.phase.kind = .halfOpen ∧
      ¬ (short.openDelay.millis : Int) ≤ (d.now.toNat : Int) - 10) := by
  intro long short c d
  have hphase : c.breaker.phase = .opened 0 := by decide
  obtain ⟨remaining, hperform, hnanos, -⟩ := acquire_of_early hphase (by decide)
  refine ⟨⟨rfl, hphase, by decide, remaining, by rw [hperform], ?_⟩, rfl, by decide, by decide,
    by decide⟩
  rw [hnanos]
  decide

end Circuit

end FlowControl
