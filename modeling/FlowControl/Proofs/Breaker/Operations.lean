import FlowControl.Breaker

/-!
# The operations of a breaker, phase by phase

What waking, asking for a permit and giving one back do in each phase, as
equations.  Later modules cite them and do not open the operations again.

An open phase lasts for the whole milliseconds of its delay, as far as 64 bits count
them.  A clock that shows less than at the opening counts as no time passed.
-/

namespace FlowControl

namespace BreakerConfig

/-- The open delay in whole milliseconds, the largest word if there are more. -/
def openMillis (c : BreakerConfig) : Nat := min c.openDelay.millis Word.maxNat

/-- The configurations without a fault. -/
theorem check_eq_ok_iff {c : BreakerConfig} :
    c.check = .ok () ↔
      (0 < c.failure.threshold ∧ c.failure.threshold ≤ c.failure.capacity) ∧
      (0 < c.success.threshold ∧ c.success.threshold ≤ c.success.capacity) ∧
      c.openDelay.nanos ≠ 0 := by
  unfold check
  by_cases hfailure : c.failure.isValid = true
  · by_cases hsuccess : c.success.isValid = true
    · by_cases hdelay : c.openDelay.isZero = true
      · simp [hfailure, hsuccess, hdelay, (Duration.isZero_iff _).mp hdelay]
      · have hnanos : c.openDelay.nanos ≠ 0 := fun h => hdelay ((Duration.isZero_iff _).mpr h)
        have hratios := And.intro (of_decide_eq_true hfailure) (of_decide_eq_true hsuccess)
        simp [hfailure, hsuccess, hdelay, hnanos, hratios]
    · have hratio : ¬ (0 < c.success.threshold ∧ c.success.threshold ≤ c.success.capacity) :=
        fun h => hsuccess (decide_eq_true h)
      simp [hfailure, hsuccess, hratio]
  · have hratio : ¬ (0 < c.failure.threshold ∧ c.failure.threshold ≤ c.failure.capacity) :=
      fun h => hfailure (decide_eq_true h)
    simp [hfailure, hratio]

end BreakerConfig

theorem Phase.exists_of_kind_opened {phase : Phase} (h : phase.kind = .opened) :
    ∃ since, phase = .opened since := by
  cases phase with
  | opened since => exact ⟨since, rfl⟩
  | closed window => cases h
  | halfOpen window inFlight => cases h

theorem Phase.exists_of_kind_halfOpen {phase : Phase} (h : phase.kind = .halfOpen) :
    ∃ window inFlight, phase = .halfOpen window inFlight := by
  cases phase with
  | halfOpen window inFlight => exact ⟨window, inFlight, rfl⟩
  | closed window => cases h
  | opened since => cases h

namespace Breaker

variable {b : Breaker} {now since : UInt64} {window : OutcomeWindow} {inFlight : Nat}
  {permit : Permit}

theorem nanos_openRemaining (b : Breaker) (since now : UInt64) :
    (b.openRemaining since now).nanos =
      (b.config.openMillis - (now.toNat - since.toNat)) * 1000000 := by
  have hmax : Word.maxNat = 18446744073709551615 := rfl
  have hspan : Duration.maxNanos = 18446744073709551615999999999 := rfl
  unfold openRemaining BreakerConfig.openMillis Duration.ofMillis
  rw [Word.toNat_sub, Word.toNat_sub, Duration.toNat_millisWord]
  -- The product stays far below the largest span, so nothing is cut off.
  refine Duration.nanos_ofNanos_of_le ?_
  omega

theorem isZero_openRemaining (b : Breaker) (since now : UInt64) :
    (b.openRemaining since now).isZero = true ↔
      b.config.openMillis ≤ now.toNat - since.toNat := by
  rw [Duration.isZero_iff, nanos_openRemaining]
  omega

/-! ## Waking -/

theorem wake_of_early (hphase : b.phase = .opened since)
    (hearly : now.toNat - since.toNat < b.config.openMillis) : b.wake now = ⟨(), b, []⟩ := by
  have hzero : ¬ (b.openRemaining since now).isZero = true := by
    rw [isZero_openRemaining]
    omega
  simp [wake, hphase, hzero]

theorem wake_of_late (hphase : b.phase = .opened since)
    (hlate : b.config.openMillis ≤ now.toNat - since.toNat) :
    b.wake now = ⟨(), b.enter (freshHalfOpen b.config), [.halfOpened]⟩ := by
  have hzero := (isZero_openRemaining b since now).mpr hlate
  simp [wake, hphase, hzero]

theorem wake_of_not_opened (hphase : b.phase.kind ≠ .opened) : b.wake now = ⟨(), b, []⟩ := by
  unfold wake
  split
  · next since hopened =>
    rw [hopened] at hphase
    exact absurd rfl hphase
  · rfl

/-! ## Asking for a permit -/

theorem tryAcquire_of_closed (now : UInt64) (hphase : b.phase = .closed window) :
    b.tryAcquire now = ⟨.ok ⟨b.generation, false⟩, b, []⟩ := by
  have hwake : b.wake now = ⟨(), b, []⟩ := wake_of_not_opened (by simp [hphase, Phase.kind])
  simp [tryAcquire, hwake, hphase]

theorem tryAcquire_of_early (hphase : b.phase = .opened since)
    (hearly : now.toNat - since.toNat < b.config.openMillis) :
    b.tryAcquire now = ⟨.error (b.openRemaining since now), b, []⟩ := by
  simp [tryAcquire, wake_of_early hphase hearly, hphase]

theorem tryAcquire_of_full (now : UInt64) (hphase : b.phase = .halfOpen window inFlight)
    (hfull : b.config.success.capacity ≤ inFlight) :
    b.tryAcquire now = ⟨.error .zero, b, []⟩ := by
  have hwake : b.wake now = ⟨(), b, []⟩ := wake_of_not_opened (by simp [hphase, Phase.kind])
  simp [tryAcquire, hwake, hphase, hfull]

theorem tryAcquire_of_room (now : UInt64) (hphase : b.phase = .halfOpen window inFlight)
    (hroom : inFlight < b.config.success.capacity) :
    b.tryAcquire now = ⟨.ok ⟨b.generation, true⟩,
      { b with phase := .halfOpen window (inFlight + 1) }, [.probeAdmitted (inFlight + 1)]⟩ := by
  have hwake : b.wake now = ⟨(), b, []⟩ := wake_of_not_opened (by simp [hphase, Phase.kind])
  simp [tryAcquire, hwake, hphase, Nat.not_le.mpr hroom]

/-- Once the delay has passed, the half-open phase begins and then decides on the permit. -/
theorem tryAcquire_of_late (hphase : b.phase = .opened since)
    (hlate : b.config.openMillis ≤ now.toNat - since.toNat) :
    b.tryAcquire now =
      let s := (b.enter (freshHalfOpen b.config)).tryAcquire now
      ⟨s.answer, s.breaker, .halfOpened :: s.events⟩ := by
  have hwake := wake_of_late hphase hlate
  have hfresh : (b.enter (freshHalfOpen b.config)).phase =
      .halfOpen (.empty b.config.success.capacity) 0 := rfl
  by_cases hroom : 0 < b.config.success.capacity
  · rw [tryAcquire_of_room now hfresh hroom]
    simp [tryAcquire, hwake, hfresh, Nat.not_le.mpr hroom]
  · have hfull : b.config.success.capacity ≤ 0 := Nat.not_lt.mp hroom
    rw [tryAcquire_of_full now hfresh hfull]
    simp [tryAcquire, hwake, hfresh, hfull]

/-! ## Giving a permit back -/

theorem settle_of_opened (failed : Option Bool) (now : UInt64) (hphase : b.phase = .opened since) :
    b.settle permit failed now = ⟨(), b, []⟩ := by
  unfold settle
  split
  · rfl
  · rw [hphase]

theorem settle_none_of_closed (now : UInt64) (hphase : b.phase = .closed window) :
    b.settle permit none now = ⟨(), b, []⟩ := by
  unfold settle
  split
  · rfl
  · rw [hphase]

theorem settle_some_of_closed {failed : Bool} (now : UInt64)
    (hgeneration : permit.generation = b.generation) (hphase : b.phase = .closed window) :
    b.settle permit (some failed) now = b.recordClosed window failed now := by
  simp [settle, hgeneration, hphase]

theorem settle_none_of_halfOpen (now : UInt64) (hgeneration : permit.generation = b.generation)
    (hphase : b.phase = .halfOpen window inFlight) :
    b.settle permit none now =
      ⟨(), { b with phase := .halfOpen window (if permit.isProbe then inFlight - 1 else inFlight) },
        []⟩ := by
  simp [settle, hgeneration, hphase]

theorem settle_some_of_halfOpen {failed : Bool} (now : UInt64)
    (hgeneration : permit.generation = b.generation)
    (hphase : b.phase = .halfOpen window inFlight) :
    b.settle permit (some failed) now =
      b.recordHalfOpen window (if permit.isProbe then inFlight - 1 else inFlight) failed now := by
  simp [settle, hgeneration, hphase]

end Breaker

end FlowControl
