import FlowControl.Proofs.Breaker.Circuit

/-!
# The windows of a breaker

At every moment a window counts its failures exactly and holds no more outcomes
than fit.  A closed window stays below the failures that open the breaker.  A half-open one
stays below the successes that close it and within the failures that still leave
room for them; both bounds together keep it short of its capacity, so it
never forgets an outcome.  None of the differences that are taken falls below
zero.

The runs are arbitrary, and nothing is asked of the permits: the bounds hold whether or
not generations have wrapped around.
-/

namespace FlowControl

namespace OutcomeWindow

variable {w : OutcomeWindow}

theorem Sound.failures_le (h : w.Sound) : w.failures ≤ w.size := by
  rw [h.failures_eq]
  exact List.count_le_length

theorem Sound.successes_add_failures (h : w.Sound) : w.successes + w.failures = w.size := by
  have hle := h.failures_le
  unfold successes
  omega

theorem Sound.forgetOldest (h : w.Sound) : w.forgetOldest.Sound := by
  obtain ⟨capacity, outcomes, failures⟩ := w
  have hfailures : failures = outcomes.count true := h.failures_eq
  have hsize : outcomes.length ≤ capacity := h.size_le
  cases outcomes with
  | nil => exact h
  | cons oldest later =>
      constructor
      · cases oldest with
        | true => simp [OutcomeWindow.forgetOldest, hfailures]
        | false => simp [OutcomeWindow.forgetOldest, hfailures]
      · simp only [List.length_cons] at hsize
        show later.length ≤ capacity
        omega

theorem Sound.append (h : w.Sound) (hroom : w.size < w.capacity) (failed : Bool) :
    (w.append failed).Sound := by
  have hfailures := h.failures_eq
  constructor
  · cases failed with
    | true => simp [OutcomeWindow.append, hfailures]
    | false => simp [OutcomeWindow.append, hfailures]
  · show (w.outcomes ++ [failed]).length ≤ w.capacity
    have hsize : w.outcomes.length < w.capacity := hroom
    simp only [List.length_append, List.length_singleton]
    omega

theorem size_forgetOldest (w : OutcomeWindow) : w.forgetOldest.size = w.size - 1 := by
  obtain ⟨capacity, outcomes, failures⟩ := w
  cases outcomes with
  | nil => rfl
  | cons oldest later => simp [OutcomeWindow.forgetOldest, size]

theorem capacity_forgetOldest (w : OutcomeWindow) : w.forgetOldest.capacity = w.capacity := by
  unfold OutcomeWindow.forgetOldest
  split <;> rfl

/-- A window that has room for one outcome at all stays sound. -/
theorem Sound.push (h : w.Sound) (hcapacity : 0 < w.capacity) (failed : Bool) :
    (w.push failed).Sound := by
  unfold OutcomeWindow.push
  by_cases hfull : w.size = w.capacity
  · rw [if_pos hfull]
    refine h.forgetOldest.append ?_ failed
    rw [size_forgetOldest, capacity_forgetOldest]
    omega
  · rw [if_neg hfull]
    have hsize := h.size_le
    exact h.append (by omega) failed

/-- The differences that are taken when an outcome comes: one failure less if the oldest outcome
was one, and the successes of the new window. -/
structure NoUnderflow (w : OutcomeWindow) : Prop where
  oldest : w.size = w.capacity → w.outcomes.head? = some true → 1 ≤ w.failures
  successes : ∀ failed, (w.push failed).failures ≤ (w.push failed).size

theorem Sound.noUnderflow (h : w.Sound) (hcapacity : 0 < w.capacity) : w.NoUnderflow where
  oldest _ hhead := by
    have hmem : true ∈ w.outcomes := List.mem_of_mem_head? hhead
    rw [h.failures_eq]
    exact List.count_pos_iff.mpr hmem
  successes failed := (h.push hcapacity failed).failures_le

end OutcomeWindow

/-- The bounds that the windows of a phase keep to under a configuration. -/
def Phase.Bounded (config : BreakerConfig) : Phase → Prop
  | .closed w =>
    w.Sound ∧ w.capacity = config.failure.capacity ∧ w.failures < config.failure.threshold
  | .opened _ => True
  | .halfOpen w _ =>
    w.Sound ∧ w.capacity = config.success.capacity ∧
      w.successes < config.success.threshold ∧ w.failures ≤ config.toleratedFailures

variable {config : BreakerConfig}

theorem bounded_freshClosed (hvalid : config.check = .ok ()) :
    (Breaker.freshClosed config).Bounded config := by
  obtain ⟨⟨hpositive, -⟩, -⟩ := BreakerConfig.check_eq_ok_iff.mp hvalid
  exact ⟨OutcomeWindow.sound_empty _, rfl, hpositive⟩

theorem bounded_freshHalfOpen (hvalid : config.check = .ok ()) :
    (Breaker.freshHalfOpen config).Bounded config := by
  obtain ⟨-, ⟨hpositive, -⟩, -⟩ := BreakerConfig.check_eq_ok_iff.mp hvalid
  exact ⟨OutcomeWindow.sound_empty _, rfl, hpositive, Nat.zero_le _⟩

namespace Circuit

variable {c c' : Circuit} {a : Act}

/-- No act breaks the bounds: an outcome that would does not stay in the phase. -/
theorem Effect.bounded (h : c.Effect a c') (hvalid : c.breaker.config.check = .ok ())
    (hbounded : c.breaker.phase.Bounded c.breaker.config) :
    c'.breaker.phase.Bounded c.breaker.config := by
  obtain ⟨⟨hft, hfc⟩, ⟨hst, hsc⟩, -⟩ := BreakerConfig.check_eq_ok_iff.mp hvalid
  induction h with
  | clock | looks | rejects | full | missing | admits => exact hbounded
  | resets c => exact bounded_freshClosed hvalid
  | stirs c hphase hlate => exact bounded_freshHalfOpen hvalid
  | wakes hphase hlate hthen ih =>
      -- The permit is asked for in the half-open phase, which begins within its bounds.
      exact ih hvalid (bounded_freshHalfOpen hvalid) hft hfc hst hsc
  | probes c hphase hroom =>
      rw [hphase] at hbounded
      exact hbounded
  | late | idle | forgets =>
      rw [breaker_giveBack]
      exact hbounded
  | counts c hout hgeneration hphase hlow =>
      rw [hphase] at hbounded
      obtain ⟨hsound, hcapacity, -⟩ := hbounded
      rw [breaker_giveBack]
      have hroom := Nat.lt_of_lt_of_le hft hfc
      exact ⟨hsound.push (hcapacity ▸ hroom) _, by rw [OutcomeWindow.capacity_push, hcapacity],
        hlow⟩
  | trips | relapses =>
      rw [breaker_giveBack]
      trivial
  | recovers c hout hgeneration hphase henough =>
      rw [breaker_giveBack]
      exact bounded_freshClosed hvalid
  | frees c hout hgeneration hphase =>
      rw [hphase] at hbounded
      rw [breaker_giveBack]
      exact hbounded
  | weighs c hout hgeneration hphase hfew htolerated =>
      rw [hphase] at hbounded
      obtain ⟨hsound, hcapacity, -⟩ := hbounded
      rw [breaker_giveBack]
      have hroom := Nat.lt_of_lt_of_le hst hsc
      exact ⟨hsound.push (hcapacity ▸ hroom) _, by rw [OutcomeWindow.capacity_push, hcapacity],
        hfew, htolerated⟩

theorem bounded_run (hvalid : c.breaker.config.check = .ok ())
    (hbounded : c.breaker.phase.Bounded c.breaker.config) (acts : List Act) :
    (c.run acts).breaker.phase.Bounded c.breaker.config := by
  refine (run_keeps (P := fun d => d.breaker.config = c.breaker.config ∧
    d.breaker.phase.Bounded c.breaker.config) ?_ ⟨rfl, hbounded⟩ acts).2
  rintro d a ⟨hconfig, hd⟩
  have heffect := effect_step d a
  rw [← hconfig] at hvalid hd ⊢
  exact ⟨heffect.config_eq, heffect.bounded hvalid hd⟩

/-- In every run of a valid breaker, closed and half-open windows keep their bounds, and a
half-open window takes every outcome without forgetting one. -/
theorem windows_bounded (config : BreakerConfig) (hvalid : config.check = .ok ())
    (now : UInt64) (acts : List Act) :
    let c := (start config now).run acts
    (∀ w, c.breaker.phase = .closed w →
      w.Sound ∧ w.NoUnderflow ∧ w.capacity = config.failure.capacity ∧
        w.failures < config.failure.threshold) ∧
    (∀ w inFlight, c.breaker.phase = .halfOpen w inFlight →
      w.Sound ∧ w.NoUnderflow ∧ w.capacity = config.success.capacity ∧
        w.successes < config.success.threshold ∧
        w.failures ≤ config.success.capacity - config.success.threshold ∧
        w.size < config.success.capacity ∧
        ∀ failed, (w.push failed).outcomes = w.outcomes ++ [failed]) ∧
    config.success.threshold ≤ config.success.capacity := by
  intro c
  obtain ⟨⟨hft, hfc⟩, ⟨hst, hsc⟩, -⟩ := BreakerConfig.check_eq_ok_iff.mp hvalid
  have hbounded : c.breaker.phase.Bounded config :=
    bounded_run (c := start config now) hvalid (bounded_freshClosed hvalid) acts
  refine ⟨?_, ?_, hsc⟩
  · intro w hphase
    rw [hphase] at hbounded
    obtain ⟨hsound, hcapacity, hlow⟩ := hbounded
    exact ⟨hsound, hsound.noUnderflow (by omega), hcapacity, hlow⟩
  · intro w inFlight hphase
    rw [hphase] at hbounded
    obtain ⟨hsound, hcapacity, hfew, htolerated⟩ := hbounded
    have htolerated' : w.failures ≤ config.success.capacity - config.success.threshold :=
      htolerated
    -- Fewer successes than close the breaker and no more failures than it tolerates: there is
    -- room for another outcome.
    have hsum := hsound.successes_add_failures
    have hsize : w.size < config.success.capacity := by omega
    refine ⟨hsound, hsound.noUnderflow (by omega), hcapacity, hfew, htolerated', hsize, ?_⟩
    intro failed
    rw [OutcomeWindow.outcomes_push, if_neg (by omega)]

/-- A breaker that closes after two successes of three, after a failed probe and a good one. -/
theorem windows_bounded_two_of_three :
    let config : BreakerConfig := ⟨⟨1, 1⟩, ⟨2, 3⟩, .ofSecs 1⟩
    let acts : List Act := [.acquire, .settle 0 (some true), .setClock 1000, .acquire,
      .settle 1 (some true), .acquire, .settle 2 (some false)]
    ((start config 0).run acts).breaker.phase = .halfOpen ⟨3, [true, false], 1⟩ 0 ∧
      ∀ failed, ((⟨3, [true, false], 1⟩ : OutcomeWindow).push failed).outcomes =
        [true, false, failed] := by
  intro config acts
  have hphase : ((start config 0).run acts).breaker.phase =
      .halfOpen ⟨3, [true, false], 1⟩ 0 := by decide
  obtain ⟨-, hhalfOpen, -⟩ := windows_bounded config rfl 0 acts
  obtain ⟨-, -, -, -, -, -, hpush⟩ := hhalfOpen _ 0 hphase
  exact ⟨hphase, hpush⟩

end Circuit

end FlowControl
