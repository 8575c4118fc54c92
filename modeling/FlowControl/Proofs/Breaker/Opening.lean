import FlowControl.Proofs.Breaker.Observing
import FlowControl.Proofs.Breaker.Phases

/-!
# What an outcome that opens a breaker brings about

An open breaker keeps its phase as long as it is not reset and its clock shows less than the
delay since the opening (`opened_run_of_early`).  So an outcome that opens the breaker
makes it refuse permits and show the open phase for as long as the clock stays at the
reading of the outcome, if the delay has a whole millisecond (`outcome_opens_iff`).

A delay of less than a millisecond is accepted, but it is over when it begins.  A breaker
of such a delay never refuses a permit for a time that is left, and never shows an
open phase, whatever has happened to it.
-/

namespace FlowControl

/-! ## A delay of less than a millisecond -/

namespace Breaker

variable {b : Breaker} {now : UInt64} {remaining : Duration}

/-- A breaker that is not open refuses a permit with no time that is left. -/
theorem eq_zero_of_tryAcquire_error (hphase : b.phase.kind ≠ .opened)
    (h : (b.tryAcquire now).answer = .error remaining) : remaining = .zero := by
  cases hhere : b.phase with
  | opened since =>
      rw [hhere] at hphase
      exact absurd rfl hphase
  | closed window =>
      rw [tryAcquire_of_closed now hhere] at h
      cases h
  | halfOpen window inFlight =>
      by_cases hroom : inFlight < b.config.success.capacity
      · rw [tryAcquire_of_room now hhere hroom] at h
        cases h
      · rw [tryAcquire_of_full now hhere (Nat.not_lt.mp hroom)] at h
        cases h
        rfl

/-- A breaker whose delay is over when it begins refuses a permit with no time that is left, and
shows no open phase. -/
theorem never_opened_of_no_delay (hdelay : b.config.openMillis = 0) (now : UInt64) :
    (∀ remaining, (b.tryAcquire now).answer = .error remaining → remaining = .zero) ∧
      (b.observe now).answer ≠ .opened := by
  by_cases hopened : b.phase.kind = .opened
  · obtain ⟨since, hphase⟩ := Phase.exists_of_kind_opened hopened
    have hlate : b.config.openMillis ≤ now.toNat - since.toNat := by
      rw [hdelay]
      exact Nat.zero_le _
    constructor
    · intro remaining h
      rw [tryAcquire_of_late hphase hlate] at h
      -- The half-open phase that begins answers instead.
      have hfresh : (b.enter (freshHalfOpen b.config)).phase.kind ≠ .opened := nofun
      exact eq_zero_of_tryAcquire_error hfresh h
    · unfold observe
      rw [wake_of_late hphase hlate]
      nofun
  · refine ⟨fun remaining => eq_zero_of_tryAcquire_error hopened, ?_⟩
    unfold observe
    rw [wake_of_not_opened hopened]
    exact hopened

end Breaker

namespace Circuit

variable {c : Circuit} {a : Act} {since : UInt64}

theorem never_refuses_of_no_delay (hdelay : c.breaker.config.openMillis = 0) :
    (¬ ∃ remaining, (c.perform .acquire).answer = .admission (.error remaining) ∧
      0 < remaining.nanos) ∧ (c.perform .observe).answer ≠ .phase .opened := by
  obtain ⟨hacquire, hobserve⟩ := Breaker.never_opened_of_no_delay hdelay c.now
  constructor
  · rintro ⟨remaining, hanswer, hleft⟩
    rw [hacquire remaining (Answer.admission.inj hanswer)] at hleft
    exact Nat.lt_irrefl 0 hleft
  · intro hanswer
    exact hobserve (Answer.phase.inj hanswer)

/-! ## An open phase before its delay has passed -/

/-- No act but a reset ends an open phase before its delay has passed. -/
theorem opened_step_of_early (hphase : c.breaker.phase = .opened since)
    (hearly : c.now.toNat - since.toNat < c.breaker.config.openMillis) (ha : a ≠ .reset) :
    (c.step a).breaker = c.breaker := by
  cases a with
  | acquire =>
      obtain ⟨-, -, -, hstep⟩ := acquire_of_early hphase hearly
      rw [hstep]
  | settle k failed => rw [step_settle_of_opened hphase, breaker_giveBack]
  | observe => rw [step_observe, Breaker.wake_of_early hphase hearly, follow_breaker]
  | reset => exact absurd rfl ha
  | setClock reading => rfl

/-- A run without resets whose readings are all before the end of an open phase keeps the phase. -/
theorem opened_run_of_early (acts : List Act) (hphase : c.breaker.phase = .opened since)
    (hearly : c.now.toNat - since.toNat < c.breaker.config.openMillis)
    (hacts : ∀ a ∈ acts, a ≠ .reset ∧
      ∀ reading ∈ a.reading?, reading.toNat - since.toNat < c.breaker.config.openMillis) :
    (c.run acts).breaker = c.breaker ∧
      (c.run acts).now.toNat - since.toNat < c.breaker.config.openMillis := by
  induction acts generalizing c with
  | nil => exact ⟨rfl, hearly⟩
  | cons a acts ih =>
      obtain ⟨⟨ha, hreading⟩, hrest⟩ := List.forall_mem_cons.mp hacts
      have hbreaker := opened_step_of_early hphase hearly ha
      have hnow : (c.step a).now.toNat - since.toNat < c.breaker.config.openMillis := by
        rw [(effect_step c a).now_eq]
        cases hread : a.reading? with
        | none => exact hearly
        | some reading => exact hreading reading hread
      rw [← hbreaker] at hphase hnow hrest ⊢
      exact ih hphase hnow hrest

/-- A circuit whose open phase is not over refuses permits for the time that is left, and shows
the phase. -/
theorem refuses_of_early (hphase : c.breaker.phase = .opened since)
    (hearly : c.now.toNat - since.toNat < c.breaker.config.openMillis) :
    (∃ remaining, (c.perform .acquire).answer = .admission (.error remaining) ∧
      0 < remaining.nanos) ∧ (c.perform .observe).answer = .phase .opened := by
  constructor
  · obtain ⟨remaining, hperform, hnanos, -⟩ := acquire_of_early hphase hearly
    refine ⟨remaining, by rw [hperform], ?_⟩
    rw [hnanos]
    omega
  · simp only [perform, Breaker.observe, Breaker.wake_of_early hphase hearly, Breaker.Step.map,
      hphase, Phase.kind]

/-! ## The outcome that opens -/

/-- An outcome that opens the breaker opens it at the reading of the clock. -/
theorem phase_of_outcome_opens (hvalid : c.breaker.config.check = .ok ())
    (hbefore : c.breaker.phase.kind ≠ .opened)
    (hopens : (c.step a).breaker.phase.kind = .opened) :
    (c.step a).breaker.phase = .opened c.now := by
  obtain ⟨since, hphase⟩ := Phase.exists_of_kind_opened hopens
  rcases opened_step hvalid hphase with ⟨hopened, -⟩ | ⟨-, hnow, -⟩
  · rw [hopened] at hbefore
    exact absurd rfl hbefore
  · rw [hphase, hnow]

/-- Let an outcome open the breaker, after any run.  As long as the breaker is not reset and its
clock shows no later reading, it refuses every permit for some time that is left, and shows the
open phase, exactly if its delay has a whole millisecond. -/
theorem outcome_opens_iff (config : BreakerConfig) (hvalid : config.check = .ok ()) (now : UInt64)
    (acts : List Act) (k : Nat) (failed : Bool) (later : List Act)
    (hbefore : ((start config now).run acts).breaker.phase.kind ≠ .opened)
    (hopens : (((start config now).run acts).step (.settle k (some failed))).breaker.phase.kind =
      .opened)
    (hlater : ∀ a ∈ later, a ≠ .reset ∧
      ∀ reading ∈ a.reading?, reading ≤ ((start config now).run acts).now) :
    let d := (((start config now).run acts).step (.settle k (some failed))).run later
    ((∃ remaining, (d.perform .acquire).answer = .admission (.error remaining) ∧
        0 < remaining.nanos) ↔ 1 ≤ config.openDelay.millis) ∧
      ((d.perform .observe).answer = .phase .opened ↔ 1 ≤ config.openDelay.millis) := by
  generalize hc : (start config now).run acts = c at *
  intro d
  have hconfig : c.breaker.config = config := by
    rw [← hc]
    exact config_run (start config now) acts
  have hnext : (c.step (.settle k (some failed))).breaker.config = config := by
    rw [(effect_step c _).config_eq, hconfig]
  rcases Nat.eq_zero_or_pos config.openDelay.millis with hshort | hlong
  · -- The delay is over whatever the clock shows.
    have hdelay : d.breaker.config.openMillis = 0 := by
      rw [config_run, hnext, BreakerConfig.openMillis, hshort]
      exact Nat.zero_min _
    obtain ⟨hacquire, hobserve⟩ := never_refuses_of_no_delay hdelay
    rw [hshort]
    exact ⟨iff_of_false hacquire nofun, iff_of_false hobserve nofun⟩
  · have hphase := phase_of_outcome_opens (hconfig ▸ hvalid) hbefore hopens
    have hdelay : 0 < (c.step (.settle k (some failed))).breaker.config.openMillis := by
      rw [hnext]
      exact Nat.lt_min.mpr ⟨hlong, by decide⟩
    -- The clock shows the reading of the outcome or less, so no time has passed.
    have hnow : (c.step (.settle k (some failed))).now = c.now := (effect_step c _).now_eq
    have hstart : (c.step (.settle k (some failed))).now.toNat - c.now.toNat <
        (c.step (.settle k (some failed))).breaker.config.openMillis := by
      rw [hnow, Nat.sub_self]
      exact hdelay
    have hreadings : ∀ a ∈ later, a ≠ .reset ∧ ∀ reading ∈ a.reading?,
        reading.toNat - c.now.toNat <
          (c.step (.settle k (some failed))).breaker.config.openMillis := by
      intro a ha
      obtain ⟨hreset, hreading⟩ := hlater a ha
      refine ⟨hreset, fun reading hread => ?_⟩
      have hle := UInt64.le_iff_toNat_le.mp (hreading reading hread)
      omega
    obtain ⟨hbreaker, hearly⟩ := opened_run_of_early later hphase hstart hreadings
    rw [← hbreaker] at hphase hearly
    obtain ⟨hacquire, hobserve⟩ := refuses_of_early hphase hearly
    exact ⟨iff_of_true hacquire hlong, iff_of_true hobserve hlong⟩

/-- A breaker of one millisecond is opened again by a failed probe, and the clock is set back. -/
theorem outcome_opens_iff_again :
    let config : BreakerConfig := ⟨⟨1, 1⟩, ⟨1, 1⟩, .ofMillis 1⟩
    let acts : List Act := [.acquire, .settle 0 (some true), .setClock 1, .acquire]
    let d := (((start config 0).run acts).step (.settle 1 (some true))).run
      [.acquire, .setClock 0, .observe]
    (∃ remaining, (d.perform .acquire).answer = .admission (.error remaining) ∧
      0 < remaining.nanos) ∧ (d.perform .observe).answer = .phase .opened := by
  intro config acts d
  have hnow : ((start config 0).run acts).now = 1 := by decide
  have hlater : ∀ a ∈ [Act.acquire, .setClock 0, .observe], a ≠ .reset ∧
      ∀ reading ∈ a.reading?, reading ≤ ((start config 0).run acts).now := by
    rw [hnow]
    refine List.forall_mem_cons.mpr ⟨⟨nofun, nofun⟩, List.forall_mem_cons.mpr ⟨⟨nofun, ?_⟩, ?_⟩⟩
    · rintro reading ⟨⟩
      decide
    · exact List.forall_mem_singleton.mpr ⟨nofun, nofun⟩
  obtain ⟨hacquire, hobserve⟩ := outcome_opens_iff config rfl 0 acts 1 true
    [.acquire, .setClock 0, .observe] (by decide) (by decide) hlater
  exact ⟨hacquire.mpr (by decide), hobserve.mpr (by decide)⟩

/-- A breaker of a nanosecond less than a millisecond is accepted, and the outcome that opens it
lets the next permit through at the same reading. -/
theorem outcome_opens_for_no_time :
    let config : BreakerConfig := ⟨⟨1, 1⟩, ⟨1, 1⟩, .ofNanos 999999⟩
    let c := (start config 0).run [.acquire, .settle 0 (some true)]
    config.check = .ok () ∧ c.breaker.phase = .opened 0 ∧ c.now = 0 ∧
      (c.perform .acquire).answer = .admission (.ok ⟨2, true⟩) ∧
      (c.perform .observe).answer = .phase .halfOpen := by
  exact ⟨rfl, by decide, rfl, by rfl, by rfl⟩

end Circuit

end FlowControl
