import FlowControl.Backoff
import Mathlib.Algebra.Order.Monoid.NatCast
import Mathlib.Algebra.Order.Ring.Nat

/-!
# Doubled delays in numbers without end

A doubling schedule works with words that stop at their ends: the exponent stops at 32
bits, the power and the product at 128, the delay at 64.  None of these ends shows.  A
base that is not zero, doubled so often that a word stops, is beyond the cap already,
because no cap is longer than an hour, and a base of zero stays zero.
-/

namespace FlowControl.Backoff

variable {base cap : Duration} {b : Backoff} {k limit : Nat}

/-- The exact delay after attempt `n`, in nanoseconds: the base, doubled for each attempt after
the first, up to the cap and to an hour. -/
def doubledNanos (base cap : Duration) (n : Nat) : Nat :=
  min (base.nanos * 2 ^ (n - 1)) (min cap.nanos longest.nanos)

/-- A schedule is made just from a cap that is not zero and a base that is not above it. -/
theorem doubling_eq_ok_iff :
    doubling base cap = .ok b ↔
      cap.nanos ≠ 0 ∧ base ≤ cap ∧ b = .exponential base (min cap longest) := by
  unfold doubling
  split
  · next hzero => simp [(Duration.isZero_iff cap).mp hzero]
  · next hzero =>
    rw [Duration.isZero_iff] at hzero
    split
    · next hlow =>
      have hbase : ¬ base ≤ cap := by
        rw [Duration.lt_iff] at hlow
        rw [Duration.le_iff]
        omega
      simp [hbase]
    · next hlow =>
      have hbase : base ≤ cap := by
        rw [Duration.lt_iff] at hlow
        rw [Duration.le_iff]
        omega
      constructor
      · rintro ⟨⟩
        exact ⟨hzero, hbase, rfl⟩
      · rintro ⟨-, -, rfl⟩
        rfl

/-! ## Where the words stop -/

/-- A power that fits 128 bits is computed. -/
theorem powerOfTwo_of_lt (hk : k < 128) : powerOfTwo k = 2 ^ k := by
  rw [powerOfTwo, if_pos hk]
  rfl

/-- From 128 doublings on the power stops, at a number that the power exceeds. -/
theorem powerOfTwo_of_le (hk : 128 ≤ k) : powerOfTwo k = widest ∧ widest ≤ 2 ^ k := by
  refine ⟨by rw [powerOfTwo, if_neg (Nat.not_lt.mpr hk)], ?_⟩
  have hwidest : widest ≤ 2 ^ 128 := by decide
  exact hwidest.trans (Nat.pow_le_pow_right (by decide) hk)

/-- A number that both factors reach hides which of them it was multiplied by. -/
theorem min_mul_of_le {n p q : Nat} (hp : limit ≤ p) (hq : limit ≤ q) :
    min (n * p) limit = min (n * q) limit := by
  rcases Nat.eq_zero_or_pos n with rfl | hn
  · rw [Nat.zero_mul, Nat.zero_mul]
  · rw [Nat.min_eq_right (hp.trans (Nat.le_mul_of_pos_left p hn)),
      Nat.min_eq_right (hq.trans (Nat.le_mul_of_pos_left q hn))]

/-- Below a limit of 128 bits the ends of exponent, power and product do not show. -/
theorem min_mul_powerOfTwo (n : Nat) (hlimit : limit ≤ widest) :
    min (min (n * powerOfTwo (min k 4294967295)) widest) limit = min (n * 2 ^ k) limit := by
  rw [Nat.min_assoc, Nat.min_eq_right hlimit]
  rcases Nat.lt_or_ge k 128 with hk | hk
  · rw [Nat.min_eq_left (show k ≤ 4294967295 by omega), powerOfTwo_of_lt hk]
  · obtain ⟨hstops, -⟩ := powerOfTwo_of_le (k := min k 4294967295) (by omega)
    rw [hstops]
    exact min_mul_of_le hlimit (hlimit.trans (powerOfTwo_of_le hk).2)

/-! ## The delays -/

/-- Every delay after the first attempt is the exact one. -/
theorem nanos_delay_doubling (hb : doubling base cap = .ok b) {n : Nat} (hn : 1 ≤ n) :
    (b.delay n).nanos = doubledNanos base cap n := by
  obtain ⟨-, -, rfl⟩ := doubling_eq_ok_iff.mp hb
  have hhour : (min cap longest).nanos ≤ longest.nanos := by
    rw [Duration.nanos_min]
    exact Nat.min_le_right ..
  -- An hour is below the ends of all words.
  have hwidest : (min cap longest).nanos ≤ widest := hhour.trans (by decide)
  have hword : (min cap longest).nanos ≤ Word.maxNat := hhour.trans (by decide)
  have hfits : (min cap longest).nanos ≤ Duration.maxNanos := hhour.trans (by decide)
  simp only [delay, if_neg (Nat.one_le_iff_ne_zero.mp hn), Duration.nanos_ofNanos]
  rw [min_mul_powerOfTwo _ hwidest, Nat.min_eq_left ((Nat.min_le_right ..).trans hword),
    Nat.min_eq_left ((Nat.min_le_right ..).trans hfits), Duration.nanos_min]
  rfl

theorem doubledNanos_mono (base cap : Duration) {m n : Nat} (h : m ≤ n) :
    doubledNanos base cap m ≤ doubledNanos base cap n := by
  have hpow : 2 ^ (m - 1) ≤ 2 ^ (n - 1) := Nat.pow_le_pow_right (by decide) (by omega)
  have := Nat.mul_le_mul_left base.nanos hpow
  unfold doubledNanos
  omega

/-- The delays of a doubling schedule are those of exact arithmetic, without any ends of words.
They never go down, and never exceed the cap or an hour. -/
theorem doubling_delays_exactly (hb : doubling base cap = .ok b) :
    (∀ n, 1 ≤ n →
      (b.delay n).nanos = min (base.nanos * 2 ^ (n - 1)) (min cap.nanos 3600000000000)) ∧
    (∀ m n, m ≤ n → b.delay m ≤ b.delay n) ∧
    ∀ n, b.delay n ≤ cap ∧ b.delay n ≤ longest := by
  have hzero : b.delay 0 = .zero := rfl
  refine ⟨fun n hn => nanos_delay_doubling hb hn, fun m n hmn => ?_, fun n => ?_⟩
  · rcases Nat.eq_zero_or_pos m with rfl | hm
    · rw [hzero, Duration.le_iff]
      exact Nat.zero_le _
    · rw [Duration.le_iff, nanos_delay_doubling hb (Nat.succ_le_of_lt hm),
        nanos_delay_doubling hb (Nat.le_trans hm hmn)]
      exact doubledNanos_mono base cap hmn
  · rcases Nat.eq_zero_or_pos n with rfl | hn
    · rw [hzero, Duration.le_iff, Duration.le_iff]
      exact ⟨Nat.zero_le _, Nat.zero_le _⟩
    · rw [Duration.le_iff, Duration.le_iff, nanos_delay_doubling hb hn]
      unfold doubledNanos
      omega

/-- From three nanoseconds up to two hours: attempts beyond all words are covered. -/
theorem doubling_delays_exactly_of_three :
    doubling (.ofNanos 3) (.ofSecs 7200) = .ok (.exponential (.ofNanos 3) (.ofSecs 3600)) ∧
      ∀ n, 1 ≤ n → ((Backoff.exponential (.ofNanos 3) (.ofSecs 3600)).delay n).nanos =
        min ((Duration.ofNanos 3).nanos * 2 ^ (n - 1))
          (min (Duration.ofSecs 7200).nanos 3600000000000) :=
  ⟨rfl, (@doubling_delays_exactly (.ofNanos 3) (.ofSecs 7200) _ rfl).1⟩

end FlowControl.Backoff
