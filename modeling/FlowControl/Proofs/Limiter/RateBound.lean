import FlowControl.Proofs.Limiter.Config
import FlowControl.Proofs.Limiter.InTurn

/-!
# The rate bound of a bucket

In every window of readings a bucket grants at most its capacity and one token for
each whole interval of the window, provided that states are kept for as long as
the bucket takes to fill up.  The takes may ask for any amounts, and any number of
them may come before the window.

The argument follows the potential of the stored state: every take pays for its
tokens out of it, refills do not raise it, and at the first reading of the window
it is bounded by the window alone.  Each take here sees one reading.
-/

namespace FlowControl

namespace TakeCall

/-- The tokens granted by takes at readings from `s` to `t`. -/
def granted (s t : UInt64) : List TakeCall → List (Except LimitError Unit) → Nat
  | x :: xs, result :: results =>
    (if s ≤ x.reading ∧ x.reading ≤ t ∧ result.isOk then x.amount.toNat else 0) +
      granted s t xs results
  | _, _ => 0

variable {s t : UInt64} {x : TakeCall} {xs : List TakeCall}

/-- Takes after the window grant nothing in it. -/
theorem granted_of_late (hlate : ∀ x ∈ xs, t < x.reading)
    (results : List (Except LimitError Unit)) : granted s t xs results = 0 := by
  induction xs generalizing results with
  | nil => simp [granted]
  | cons x xs ih =>
      have hx := UInt64.not_le.mpr (hlate x (List.mem_cons_self ..))
      cases results with
      | nil => simp [granted]
      | cons result results =>
          rw [granted, ih (fun y hy => hlate y (List.mem_cons_of_mem _ hy))]
          simp [hx]

end TakeCall

namespace Bucket

open TakeCall

variable {b : Bucket} {m : Memory} {s t : UInt64} {x : TakeCall} {xs : List TakeCall}

theorem isOk_verdict {state : TokenState} {n : UInt64} :
    (b.verdict state n).isOk = true ↔ n ≤ state.tokens := by
  unfold verdict
  split
  · next henough => simp [Except.isOk, Except.toBool, henough]
  · next hshort => simp [Except.isOk, Except.toBool, hshort]

/-- What a take grants it pays out of the potential of the refilled state. -/
theorem granted_cons_le {state : TokenState} {interval : UInt64} {rest : Nat}
    {results : List (Except LimitError Unit)}
    (hrest : granted s t xs results ≤ rest)
    (hpaid : rest ≤ (leftOf state x.amount).potential interval t.toNat) :
    granted s t (x :: xs) (b.verdict state x.amount :: results) ≤
      state.potential interval t.toNat := by
  rw [granted]
  by_cases henough : x.amount ≤ state.tokens
  · have hpay := TokenState.potential_spend interval t.toNat henough
    rw [leftOf, if_pos henough] at hpaid
    split <;> omega
  · have hrefused : (b.verdict state x.amount).isOk = false := by
      rw [Bool.eq_false_iff]
      exact fun hok => henough (isOk_verdict.mp hok)
    rw [leftOf, if_neg henough] at hpaid
    simp only [hrefused, Bool.false_eq_true, and_false, if_false]
    omega

/-- Takes from a stored state grant at most its potential. -/
theorem granted_le_potential
    (hlife : b.config.capacity.toNat * (TokenState.step b.config.intervalMillis).toNat ≤
      b.config.stateTtl.millisWord.toNat)
    (horder : InOrder xs) (hclock : ∀ x ∈ xs, x.reading.toNat < Word.maxNat) {k : Kept}
    (hkeeps : b.Keeps (some k) m) (hfits : k.state.Fits b.config.capacity k.writtenAt)
    (hafter : ∀ x ∈ xs, k.writtenAt ≤ x.reading) :
    granted s t xs (b.takesInTurn Memory.call xs m).1 ≤
      k.state.potential b.config.intervalMillis t.toNat := by
  induction xs generalizing k m with
  | nil => exact Nat.zero_le _
  | cons x xs ih =>
      have hwritten := hafter x (List.mem_cons_self ..)
      -- The potential is only known not to rise up to the end of the window.
      by_cases hlate : t < x.reading
      · rw [granted_of_late fun y hy => ?_]
        · exact Nat.zero_le _
        · rcases List.mem_cons.mp hy with rfl | hy
          · exact hlate
          · exact UInt64.lt_of_lt_of_le hlate (horder.head y hy)
      · have hstate := refilled_standing hfits hlife (hclock x (List.mem_cons_self ..))
        obtain ⟨m', hkeeps', hresults⟩ := takesInTurn_call_cons hkeeps x xs hstate
        have hrest := ih horder.tail (fun y hy => hclock y (List.mem_cons_of_mem _ hy)) hkeeps'
          (fits_leftOf b (some k.state) x.reading x.amount) horder.head
        rw [hresults]
        calc granted s t (x :: xs) _
            ≤ (b.refilled (some k.state) x.reading).potential b.config.intervalMillis
                t.toNat := granted_cons_le hrest (Nat.le_refl _)
          _ ≤ k.state.potential b.config.intervalMillis t.toNat :=
              TokenState.potential_refill_le
                (Nat.le_trans hfits.lastRefillAt_le (UInt64.le_iff_toNat_le.mp hwritten))
                (UInt64.le_iff_toNat_le.mp (UInt64.not_lt.mp hlate))

/-- Whatever was stored before, takes grant in a window at most the capacity and one token for
each whole interval of the window. -/
theorem granted_le_of_keeps
    (hlife : b.config.capacity.toNat * (TokenState.step b.config.intervalMillis).toNat ≤
      b.config.stateTtl.millisWord.toNat)
    (horder : InOrder xs) (hclock : ∀ x ∈ xs, x.reading.toNat < Word.maxNat)
    {kept : Option Kept} (hkeeps : b.Keeps kept m) :
    granted s t xs (b.takesInTurn Memory.call xs m).1 ≤
      b.config.capacity.toNat +
        (t.toNat - s.toNat) / (TokenState.step b.config.intervalMillis).toNat := by
  induction xs generalizing kept m with
  | nil => exact Nat.zero_le _
  | cons x xs ih =>
      obtain ⟨m', hkeeps', hresults⟩ := takesInTurn_call_cons hkeeps x xs rfl
      have hclock' : ∀ y ∈ xs, y.reading.toNat < Word.maxNat :=
        fun y hy => hclock y (List.mem_cons_of_mem _ hy)
      rw [hresults]
      by_cases hwindow : s ≤ x.reading ∧ x.reading ≤ t
      · -- The first take of the window: from here on the potential pays.
        obtain ⟨hs, ht⟩ := hwindow
        have hs' := UInt64.le_iff_toNat_le.mp hs
        have ht' := UInt64.le_iff_toNat_le.mp ht
        have hrest := granted_le_potential (s := s) (t := t) hlife horder.tail hclock' hkeeps'
          (fits_leftOf b _ x.reading x.amount) horder.head
        calc granted s t (x :: xs) _
            ≤ (b.refilled (b.standing kept x.reading) x.reading).potential
                b.config.intervalMillis t.toNat := granted_cons_le hrest (Nat.le_refl _)
          _ ≤ b.config.capacity.toNat +
                (t.toNat - x.reading.toNat) / (TokenState.step b.config.intervalMillis).toNat :=
              TokenState.potential_refill_le_capacity ht'
          _ ≤ b.config.capacity.toNat +
                (t.toNat - s.toNat) / (TokenState.step b.config.intervalMillis).toNat :=
              Nat.add_le_add_left (Nat.div_le_div_right (by omega)) _
      · have houtside : ¬ (s ≤ x.reading ∧ x.reading ≤ t ∧
            (b.verdict (b.refilled (b.standing kept x.reading) x.reading) x.amount).isOk =
              true) := fun h => hwindow ⟨h.1, h.2.1⟩
        rw [granted, if_neg houtside, Nat.zero_add]
        exact ih horder.tail hclock' hkeeps'

/-- The rate bound: in every window of readings the takes grant at most the capacity and one
token for each whole interval of the window. -/
theorem granted_takesInTurn_le (b : Bucket) (hvalid : b.config.check = .ok ())
    (hlife : b.config.capacity.toNat * b.config.interval.nanos ≤ b.config.stateTtl.nanos)
    {takes : List TakeCall} (horder : InOrder takes)
    (hclock : ∀ x ∈ takes, x.reading.toNat + b.config.stateTtl.millis < Word.size)
    (s t : UInt64) :
    granted s t takes (b.takesInTurn Memory.call takes Memory.empty).1 ≤
      b.config.capacity.toNat + (t.toNat - s.toNat) / b.config.intervalMillis.toNat := by
  have hsize : Word.size = Word.maxNat + 1 := rfl
  have hstep := LimiterConfig.step_intervalMillis hvalid
  have hinterval := LimiterConfig.le_intervalMillis hvalid
  have hcapacity := LimiterConfig.capacity_pos hvalid
  have hmillis := LimiterConfig.capacity_mul_intervalMillis_le hlife
  have hpositive : 1 * 1000 ≤ b.config.capacity.toNat * b.config.intervalMillis.toNat :=
    Nat.mul_le_mul hcapacity hinterval
  cases takes with
  | nil => exact Nat.zero_le _
  | cons x xs =>
      have hfirst := hclock x (List.mem_cons_self ..)
      have hlife' : b.config.capacity.toNat * (TokenState.step b.config.intervalMillis).toNat ≤
          b.config.stateTtl.millisWord.toNat := by
        rw [hstep, Duration.toNat_millisWord]
        omega
      have hclock' : ∀ y ∈ x :: xs, y.reading.toNat < Word.maxNat := by
        intro y hy
        have hreading := hclock y hy
        omega
      have hbound := granted_le_of_keeps (s := s) (t := t) hlife' horder hclock' (keeps_empty b)
      rw [hstep] at hbound
      exact hbound

/-- The bound at work: a standard bucket that is emptied at once gives one token back within its
interval, so three in all. -/
theorem granted_takesInTurn_le_standard :
    granted 0 3000 [⟨0, "first", 2⟩, ⟨0, "second", 1⟩, ⟨3000, "third", 1⟩]
      (takesInTurn ⟨⟨"svc", "caller", "GET", "/movies"⟩, .standard⟩ Memory.call
        [⟨0, "first", 2⟩, ⟨0, "second", 1⟩, ⟨3000, "third", 1⟩] Memory.empty).1 ≤ 3 :=
  granted_takesInTurn_le ⟨⟨"svc", "caller", "GET", "/movies"⟩, .standard⟩ rfl
    (by decide) (by unfold InOrder; decide) (by decide) 0 3000

end Bucket

end FlowControl
