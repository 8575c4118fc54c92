import FlowControl.Proofs.Limiter.InTurn
import FlowControl.Proofs.Limiter.Refill

/-!
# Refills on a clock that steps back

A refill at a reading before the last refill adds nothing, but the time counts from that
reading on.  So when the clock rises again, the same milliseconds are counted once more.
What refills add is bounded by the whole climb of the clock, the sum of all its rises
(`minted_mul_step_le`), and readings can be drained for every millisecond of it
(`minted_drain`).

The bound by the rise from the last refill to the latest reading holds for all buckets and
takes exactly when the clock, once it has stepped back, does not rise again
(`minted_le_iff_risesOnce`).  Nothing is said about buckets whose state is lost or reset.
-/

namespace FlowControl.TokenState

variable {s : TokenState} {interval capacity r t : UInt64} {readings : List UInt64}

/-- The tokens that a refill adds. -/
def added (s : TokenState) (now interval capacity : UInt64) : Nat :=
  (s.refill now interval capacity).tokens.toNat - s.tokens.toNat

/-- The tokens that are added in draws one after another.  Each draw is a refill at a reading and
then a take of an amount, if there are as many tokens. -/
def minted (interval capacity : UInt64) : TokenState → List (UInt64 × UInt64) → Nat
  | _, [] => 0
  | s, (now, n) :: draws =>
    s.added now interval capacity +
      minted interval capacity (Bucket.leftOf (s.refill now interval capacity) n) draws

theorem minted_cons (s : TokenState) (interval capacity now n : UInt64)
    (draws : List (UInt64 × UInt64)) :
    minted interval capacity s ((now, n) :: draws) = s.added now interval capacity +
      minted interval capacity (Bucket.leftOf (s.refill now interval capacity) n) draws := rfl

/-! ## The climb of a clock -/

/-- The milliseconds by which a clock rises in all, from a first reading on. -/
def climb : UInt64 → List UInt64 → Nat
  | _, [] => 0
  | r, t :: readings => (t.toNat - r.toNat) + climb t readings

/-- The latest of a first reading and those after it. -/
def peak : UInt64 → List UInt64 → Nat
  | r, [] => r.toNat
  | r, t :: readings => max r.toNat (peak t readings)

/-- Does a clock that has stepped back not rise again? -/
def RisesOnce : UInt64 → List UInt64 → Prop
  | _, [] => True
  | r, t :: readings => if r ≤ t then RisesOnce t readings else (t :: readings).Pairwise (· ≥ ·)

instance decidableRisesOnce : (r : UInt64) → (readings : List UInt64) →
    Decidable (RisesOnce r readings)
  | _, [] => .isTrue trivial
  | r, t :: readings =>
    have := decidableRisesOnce t readings
    inferInstanceAs (Decidable (if r ≤ t then _ else _))

theorem climb_cons (r t : UInt64) (readings : List UInt64) :
    climb r (t :: readings) = (t.toNat - r.toNat) + climb t readings := rfl

theorem peak_cons (r t : UInt64) (readings : List UInt64) :
    peak r (t :: readings) = max r.toNat (peak t readings) := rfl

theorem le_peak (r : UInt64) (readings : List UInt64) : r.toNat ≤ peak r readings := by
  cases readings with
  | nil => exact Nat.le_refl _
  | cons t readings => exact Nat.le_max_left ..

theorem peak_le_add_climb (r : UInt64) (readings : List UInt64) :
    peak r readings ≤ r.toNat + climb r readings := by
  induction readings generalizing r with
  | nil => exact Nat.le_refl _
  | cons t readings ih =>
      have hrest := ih t
      rw [peak_cons, climb_cons]
      omega

/-- A clock that does not rise goes down all the way. -/
theorem climb_eq_zero_iff : climb r readings = 0 ↔ (r :: readings).Pairwise (· ≥ ·) := by
  induction readings generalizing r with
  | nil => simp [climb]
  | cons t readings ih =>
      rw [climb_cons, Nat.add_eq_zero_iff, ih, List.pairwise_cons (a := r)]
      constructor
      · rintro ⟨hstep, hrest⟩
        have hle : t ≤ r := UInt64.le_iff_toNat_le.mpr (Nat.le_of_sub_eq_zero hstep)
        refine ⟨List.forall_mem_cons.mpr ⟨hle, fun later hlater => ?_⟩, hrest⟩
        exact UInt64.le_trans ((List.pairwise_cons.mp hrest).1 later hlater) hle
      · rintro ⟨hlast, hrest⟩
        have hle := UInt64.le_iff_toNat_le.mp (hlast t List.mem_cons_self)
        exact ⟨Nat.sub_eq_zero_of_le hle, hrest⟩

/-- A clock climbs no more than from its first reading to its latest exactly if it does not rise
again once it has stepped back. -/
theorem climb_le_peak_sub_iff : climb r readings ≤ peak r readings - r.toNat ↔
    RisesOnce r readings := by
  induction readings generalizing r with
  | nil => simp [climb, RisesOnce]
  | cons t readings ih =>
      have hpeak := le_peak t readings
      have hclimb := peak_le_add_climb t readings
      rw [climb_cons, peak_cons, RisesOnce]
      split
      · next hle =>
        -- The first rise counts on both sides.
        have hle := UInt64.le_iff_toNat_le.mp hle
        rw [← ih]
        omega
      · next hback =>
        -- The latest reading stays below what is climbed from the lower one.
        have hback := UInt64.lt_iff_toNat_lt.mp (UInt64.not_le.mp hback)
        rw [← climb_eq_zero_iff]
        omega

/-! ## What is minted -/

@[simp] theorem lastRefillAt_leftOf (s : TokenState) (n : UInt64) :
    (Bucket.leftOf s n).lastRefillAt = s.lastRefillAt := by
  unfold Bucket.leftOf
  split <;> rfl

/-- A refill adds a token for each whole interval since the last one at most, and what is left of
that time is what counts from then on. -/
theorem added_mul_step_le (s : TokenState) (now interval capacity : UInt64) :
    (step interval).toNat * s.added now interval capacity +
        (now.toNat - (s.refill now interval capacity).lastRefillAt.toNat) ≤
      now.toNat - s.lastRefillAt.toNat := by
  have hearned := Nat.div_add_mod (now.toNat - s.lastRefillAt.toNat) (step interval).toNat
  rw [← toNat_earned_step] at hearned
  by_cases hfills : capacity.toNat ≤ s.tokens.toNat + (s.earned now interval).toNat
  · rw [added, refill_of_fills hfills]
    have hle : capacity.toNat - s.tokens.toNat ≤ (s.earned now interval).toNat := by omega
    have hmul := Nat.mul_le_mul_left (step interval).toNat hle
    show _ * (capacity.toNat - s.tokens.toNat) + (now.toNat - now.toNat) ≤ _
    omega
  · have hshort := Nat.lt_of_not_le hfills
    have hmod := Nat.mod_le (now.toNat - s.lastRefillAt.toNat) (step interval).toNat
    rw [added, toNat_tokens_refill hshort, toNat_lastRefillAt_refill hshort, ← toNat_step,
      Nat.add_sub_cancel_left]
    omega

/-- What draws add is paid for by the climb of the clock and the time that was left before. -/
theorem minted_mul_step_le (interval capacity : UInt64) (draws : List (UInt64 × UInt64))
    (hlast : s.lastRefillAt ≤ r) :
    (step interval).toNat * minted interval capacity s draws ≤
      (r.toNat - s.lastRefillAt.toNat) + climb r (draws.map Prod.fst) := by
  -- After each draw the last refill lies no later than its reading, which carries the induction.
  induction draws generalizing s r with
  | nil => simp [minted]
  | cons draw draws ih =>
      obtain ⟨now, n⟩ := draw
      have hpaid := added_mul_step_le s now interval capacity
      have hle := UInt64.le_iff_toNat_le.mp hlast
      have hnow : (Bucket.leftOf (s.refill now interval capacity) n).lastRefillAt ≤ now := by
        rw [lastRefillAt_leftOf]
        exact UInt64.le_iff_toNat_le.mpr (fits_refill s now interval capacity).lastRefillAt_le
      have hrest := ih hnow
      rw [lastRefillAt_leftOf] at hrest
      have hreadings : ((now, n) :: draws).map Prod.fst = now :: draws.map Prod.fst := rfl
      rw [minted_cons, Nat.mul_add, hreadings, climb_cons]
      omega

theorem minted_le_climb_div (interval capacity tokens r : UInt64) (draws : List (UInt64 × UInt64)) :
    minted interval capacity ⟨tokens, r⟩ draws ≤
      climb r (draws.map Prod.fst) / (step interval).toNat := by
  have hpaid := minted_mul_step_le (s := ⟨tokens, r⟩) interval capacity draws (UInt64.le_refl r)
  rw [Nat.sub_self, Nat.zero_add] at hpaid
  rw [Nat.le_div_iff_mul_le (step_pos interval), Nat.mul_comm]
  exact hpaid

/-! ## Draining the clock -/

/-- Draws that take the milliseconds of each rise, at given readings. -/
def drain : UInt64 → List UInt64 → List (UInt64 × UInt64)
  | _, [] => []
  | r, t :: readings => (t, Word.sub t r) :: drain t readings

theorem map_fst_drain (r : UInt64) (readings : List UInt64) :
    (drain r readings).map Prod.fst = readings := by
  induction readings generalizing r with
  | nil => rfl
  | cons t readings ih => rw [drain, List.map_cons, ih]

/-- An empty bucket of the largest size gains a token for each millisecond. -/
theorem refill_by_millis (t r : UInt64) :
    (TokenState.mk 0 r).refill t 1 18446744073709551615 = ⟨Word.sub t r, t⟩ := by
  have hearned : ((TokenState.mk 0 r).earned t 1).toNat = t.toNat - r.toNat := by
    rw [toNat_earned]
    exact Nat.div_one _
  have hsub : (Word.sub t r).toNat = t.toNat - r.toNat := Word.toNat_sub t r
  have htokens : (TokenState.mk 0 r).tokens.toNat = 0 := rfl
  have hcapacity : (18446744073709551615 : UInt64).toNat = 18446744073709551615 := rfl
  by_cases hfills : (18446744073709551615 : UInt64).toNat ≤
      (TokenState.mk 0 r).tokens.toNat + ((TokenState.mk 0 r).earned t 1).toNat
  · have hlt := t.toNat_lt
    rw [refill_of_fills hfills, full, mk.injEq]
    refine ⟨UInt64.toNat_inj.mp ?_, rfl⟩
    omega
  · have hshort := Nat.lt_of_not_le hfills
    rw [mk.injEq]
    constructor
    · apply UInt64.toNat_inj.mp
      rw [toNat_tokens_refill hshort]
      omega
    · apply UInt64.toNat_inj.mp
      rw [toNat_lastRefillAt_refill hshort]
      exact congrArg (t.toNat - ·) (Nat.mod_one _)

/-- A bucket that gains a token each millisecond and is drained at every reading mints the whole
climb. -/
theorem minted_drain (r : UInt64) (readings : List UInt64) :
    minted 1 18446744073709551615 ⟨0, r⟩ (drain r readings) = climb r readings := by
  induction readings generalizing r with
  | nil => rfl
  | cons t readings ih =>
      have hdrained : Bucket.leftOf ⟨Word.sub t r, t⟩ (Word.sub t r) = ⟨0, t⟩ := by
        simp [Bucket.leftOf, spend]
      rw [drain, minted_cons, added, refill_by_millis, hdrained, ih, climb_cons, Word.toNat_sub]
      rfl

/-- Whatever the bucket and the takes, refills add no more tokens than whole intervals fit into the
climb of the clock from the last refill on.  They add no more than fit between the last refill and
the latest reading, whatever the bucket and the takes, exactly if the clock does not rise again
once it has stepped back. -/
theorem minted_le_iff_risesOnce (r : UInt64) (readings : List UInt64) :
    (∀ interval capacity tokens draws, draws.map Prod.fst = readings →
      minted interval capacity ⟨tokens, r⟩ draws ≤ climb r readings / (step interval).toNat) ∧
    ((∀ interval capacity tokens draws, draws.map Prod.fst = readings →
      minted interval capacity ⟨tokens, r⟩ draws ≤
        (peak r readings - r.toNat) / (step interval).toNat) ↔ RisesOnce r readings) := by
  refine ⟨?_, ?_, ?_⟩
  · rintro interval capacity tokens draws rfl
    exact minted_le_climb_div interval capacity tokens r draws
  · intro hbound
    -- The drained bucket mints the whole climb, so the bound bounds the climb.
    refine climb_le_peak_sub_iff.mp ?_
    calc climb r readings
        = minted 1 18446744073709551615 ⟨0, r⟩ (drain r readings) := (minted_drain r readings).symm
      _ ≤ (peak r readings - r.toNat) / (step 1).toNat :=
          hbound 1 18446744073709551615 0 (drain r readings) (map_fst_drain r readings)
      _ ≤ peak r readings - r.toNat := Nat.div_le_self ..
  · rintro hrises interval capacity tokens draws rfl
    calc minted interval capacity ⟨tokens, r⟩ draws
        ≤ climb r (draws.map Prod.fst) / (step interval).toNat :=
          minted_le_climb_div interval capacity tokens r draws
      _ ≤ (peak r (draws.map Prod.fst) - r.toNat) / (step interval).toNat :=
          Nat.div_le_div_right (climb_le_peak_sub_iff.mpr hrises)

/-- A clock that rises by two seconds and then falls lets an empty bucket gain two tokens. -/
theorem minted_le_iff_risesOnce_falling :
    let draws : List (UInt64 × UInt64) := [(3000, 1), (2000, 0), (1500, 5)]
    minted 1000 10 ⟨0, 1000⟩ draws ≤ climb 1000 [3000, 2000, 1500] / (step 1000).toNat ∧
      minted 1000 10 ⟨0, 1000⟩ draws ≤ 2 := by
  intro draws
  obtain ⟨hclimb, hpeak⟩ := minted_le_iff_risesOnce 1000 [3000, 2000, 1500]
  have hrises : RisesOnce 1000 [3000, 2000, 1500] := by decide
  constructor
  · exact hclimb 1000 10 0 draws rfl
  · exact hpeak.mpr hrises 1000 10 0 draws rfl

/-- A clock that steps back by five seconds and rises to where it was mints five tokens, though no
reading is later than the last refill. -/
theorem minted_without_time :
    minted 1000 10 ⟨0, 10000⟩ [(5000, 0), (10000, 0)] = 5 ∧
      peak 10000 [5000, 10000] - (10000 : UInt64).toNat = 0 := by
  decide

end FlowControl.TokenState
