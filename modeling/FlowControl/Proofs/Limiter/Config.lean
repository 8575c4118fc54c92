import FlowControl.Limiter.Config
import FlowControl.Limiter.TokenState

/-!
# What a valid configuration promises

A configuration without a fault has at least one token, an interval of at least a
second and a state life of at least one interval.  The capacity and the state life
are not compared: a valid configuration may keep its state for less time than the
bucket takes to fill up.
-/

namespace FlowControl.LimiterConfig

variable {c : LimiterConfig}

/-- The configurations without a fault. -/
theorem check_eq_ok_iff :
    c.check = .ok () ↔
      c.capacity ≠ 0 ∧ .ofSecs 1 ≤ c.interval ∧ c.ttlMultiplier ≠ 0 ∧
        c.lock.check = .ok () := by
  have hshort : c.interval < .ofSecs 1 ↔ ¬ (.ofSecs 1 ≤ c.interval) := by
    rw [Duration.lt_iff, Duration.le_iff]
    exact Nat.not_le.symm
  unfold check
  simp only [hshort]
  by_cases hcapacity : c.capacity = 0
  · simp [hcapacity]
  · by_cases hinterval : Duration.ofSecs 1 ≤ c.interval
    · by_cases hlife : c.ttlMultiplier = 0
      · simp [hcapacity, hinterval, hlife]
      · simp [hcapacity, hinterval, hlife]
    · simp [hcapacity, hinterval]

theorem capacity_pos (h : c.check = .ok ()) : 0 < c.capacity.toNat := by
  have hcapacity := (check_eq_ok_iff.mp h).1
  refine Nat.pos_of_ne_zero fun hzero => hcapacity ?_
  exact UInt64.toNat_inj.mp hzero

/-- The interval of a valid configuration is a second or more, in milliseconds as well. -/
theorem le_intervalMillis (h : c.check = .ok ()) : 1000 ≤ c.intervalMillis.toNat := by
  have hinterval : (Duration.ofSecs 1).nanos ≤ c.interval.nanos := (check_eq_ok_iff.mp h).2.1
  have hsecond : (Duration.ofSecs 1).nanos = 1000000000 := rfl
  have hmax : Word.maxNat = 18446744073709551615 := rfl
  rw [intervalMillis, Duration.toNat_millisWord]
  unfold Duration.millis
  omega

/-- Refills of a valid configuration count its interval as it is. -/
theorem step_intervalMillis (h : c.check = .ok ()) :
    TokenState.step c.intervalMillis = c.intervalMillis := by
  have hinterval := le_intervalMillis h
  apply UInt64.toNat_inj.mp
  rw [TokenState.toNat_step]
  omega

theorem intervalMillis_le : c.intervalMillis.toNat ≤ c.interval.millis := by
  rw [intervalMillis, Duration.toNat_millisWord]
  exact Nat.min_le_left ..

/-- A state life in which the bucket fills up is as long when both are counted in whole
milliseconds. -/
theorem capacity_mul_intervalMillis_le
    (hlife : c.capacity.toNat * c.interval.nanos ≤ c.stateTtl.nanos) :
    c.capacity.toNat * c.intervalMillis.toNat ≤ c.stateTtl.millis := by
  calc c.capacity.toNat * c.intervalMillis.toNat
      ≤ c.capacity.toNat * c.interval.millis := Nat.mul_le_mul_left _ intervalMillis_le
    _ ≤ c.capacity.toNat * c.interval.nanos / 1000000 := by
        rw [Nat.le_div_iff_mul_le (by decide), Nat.mul_assoc]
        exact Nat.mul_le_mul_left _ (Nat.div_mul_le_self ..)
    _ ≤ c.stateTtl.millis := Nat.div_le_div_right hlife

end FlowControl.LimiterConfig
