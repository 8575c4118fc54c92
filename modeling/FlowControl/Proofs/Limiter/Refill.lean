import FlowControl.Limiter.TokenState

/-!
# What refills can add

The tokens a bucket can still give out up to a reading are those it has and one
for each whole interval that ends by then.  A refill never raises this number, and
a take lowers it by what it takes.  Right after a refill it is at most the capacity
and one token for each whole interval that is left, however long the bucket was
idle before.

Everything here is about one state at a time; where states are kept and when they
are lost is not seen.
-/

namespace FlowControl.TokenState

variable {s : TokenState} {now interval capacity n : UInt64} {t : Nat}

/-- The tokens a state can give out by a reading: those it has, and one for each whole
interval between its last refill and that reading. -/
def potential (s : TokenState) (interval : UInt64) (t : Nat) : Nat :=
  s.tokens.toNat + (t - s.lastRefillAt.toNat) / (step interval).toNat

/-- A state that a bucket of a capacity can have stored at a reading. -/
structure Fits (s : TokenState) (capacity now : UInt64) : Prop where
  tokens_le : s.tokens.toNat ≤ capacity.toNat
  lastRefillAt_le : s.lastRefillAt.toNat ≤ now.toNat

theorem step_pos (interval : UInt64) : 0 < (step interval).toNat := by
  rw [toNat_step]
  omega

theorem step_ne_zero (interval : UInt64) : step interval ≠ 0 := by
  intro h
  have hpos := step_pos interval
  rw [h] at hpos
  exact Nat.lt_irrefl 0 hpos

theorem toNat_earned_step (s : TokenState) (now interval : UInt64) :
    (s.earned now interval).toNat =
      (now.toNat - s.lastRefillAt.toNat) / (step interval).toNat := by
  rw [toNat_earned, toNat_step]

theorem fits_full (capacity now : UInt64) : (full capacity now).Fits capacity now :=
  ⟨Nat.le_refl _, Nat.le_refl _⟩

/-- A refilled state fits at the reading of the refill, whatever was stored before. -/
theorem fits_refill (s : TokenState) (now interval capacity : UInt64) :
    (s.refill now interval capacity).Fits capacity now := by
  by_cases hfills : capacity.toNat ≤ s.tokens.toNat + (s.earned now interval).toNat
  · rw [refill_of_fills hfills]
    exact fits_full capacity now
  · have hshort := Nat.lt_of_not_le hfills
    constructor
    · rw [toNat_tokens_refill hshort]
      omega
    · rw [toNat_lastRefillAt_refill hshort]
      exact Nat.sub_le ..

/-- A bucket that a refill does not fill carries less than one interval over. -/
theorem refill_eq_full_or_carries (s : TokenState) (now interval capacity : UInt64) :
    s.refill now interval capacity = full capacity now ∨
      now.toNat - (s.refill now interval capacity).lastRefillAt.toNat < max interval.toNat 1 := by
  by_cases hfills : capacity.toNat ≤ s.tokens.toNat + (s.earned now interval).toNat
  · exact .inl (refill_of_fills hfills)
  · have hpos := step_pos interval
    rw [toNat_step] at hpos
    have hmod := Nat.mod_lt (now.toNat - s.lastRefillAt.toNat) hpos
    rw [toNat_lastRefillAt_refill (Nat.lt_of_not_le hfills)]
    exact .inr (by omega)

/-- A refill takes no tokens, but for those above the capacity. -/
theorem min_le_tokens_refill (s : TokenState) (now interval capacity : UInt64) :
    min s.tokens.toNat capacity.toNat ≤ (s.refill now interval capacity).tokens.toNat := by
  by_cases hfills : capacity.toNat ≤ s.tokens.toNat + (s.earned now interval).toNat
  · rw [refill_of_fills hfills]
    exact Nat.min_le_right ..
  · rw [toNat_tokens_refill (Nat.lt_of_not_le hfills)]
    omega

theorem toNat_spend (h : n ≤ s.tokens) :
    (s.spend n).tokens.toNat = s.tokens.toNat - n.toNat :=
  UInt64.toNat_sub_of_le _ _ h

theorem Fits.spend (h : s.Fits capacity now) (hn : n ≤ s.tokens) :
    (s.spend n).Fits capacity now := by
  refine ⟨?_, h.lastRefillAt_le⟩
  have htokens := h.tokens_le
  rw [toNat_spend hn]
  omega

/-- A take lowers the potential by what it takes. -/
theorem potential_spend (interval : UInt64) (t : Nat) (h : n ≤ s.tokens) :
    (s.spend n).potential interval t + n.toNat = s.potential interval t := by
  have hle := UInt64.le_iff_toNat_le.mp h
  have hlast : (s.spend n).lastRefillAt = s.lastRefillAt := rfl
  unfold potential
  rw [toNat_spend h, hlast]
  omega

theorem potential_full :
    (full capacity now).potential interval t =
      capacity.toNat + (t - now.toNat) / (step interval).toNat := rfl

/-- Whole intervals before a reading and after it fit into the whole span. -/
theorem div_add_div_le_of_between {a b c d : Nat} (hab : a ≤ b) (hbc : b ≤ c) (hd : 0 < d) :
    (b - a) / d + (c - b) / d ≤ (c - a) / d := by
  rw [Nat.le_div_iff_mul_le hd, Nat.add_mul]
  have hfirst := Nat.div_mul_le_self (b - a) d
  have hsecond := Nat.div_mul_le_self (c - b) d
  omega

/-- Moving the last refill forward by whole intervals gives up exactly that many. -/
theorem div_add_div_of_carry {a b c d : Nat} (hab : a ≤ b) (hbc : b ≤ c) (hd : 0 < d) :
    (b - a) / d + (c - (b - (b - a) % d)) / d = (c - a) / d := by
  have hmod := Nat.mod_le (b - a) d
  have hsplit := Nat.div_add_mod (b - a) d
  have hspan : c - a = c - (b - (b - a) % d) + d * ((b - a) / d) := by omega
  rw [hspan, Nat.add_mul_div_left _ _ hd, Nat.add_comm]

/-- Moving the last refill forward by whole intervals leaves the part of an interval as it is. -/
theorem mod_of_carry {a b c d : Nat} (hab : a ≤ b) (hbc : b ≤ c) :
    (c - (b - (b - a) % d)) % d = (c - a) % d := by
  have hmod := Nat.mod_le (b - a) d
  have hsplit := Nat.div_add_mod (b - a) d
  have hspan : c - a = c - (b - (b - a) % d) + d * ((b - a) / d) := by omega
  rw [hspan, Nat.add_mul_mod_self_left]

/-- A refill never raises the potential. -/
theorem potential_refill_le (hlast : s.lastRefillAt.toNat ≤ now.toNat) (hnow : now.toNat ≤ t) :
    (s.refill now interval capacity).potential interval t ≤ s.potential interval t := by
  have hpos := step_pos interval
  by_cases hfills : capacity.toNat ≤ s.tokens.toNat + (s.earned now interval).toNat
  · -- The bucket fills up: what is cut off only lowers the potential.
    have hspan := div_add_div_le_of_between hlast hnow hpos
    rw [refill_of_fills hfills, potential_full]
    rw [toNat_earned_step] at hfills
    unfold potential
    omega
  · -- It does not: the remainder is carried over, so nothing is gained or lost.
    have hshort := Nat.lt_of_not_le hfills
    have hspan := div_add_div_of_carry hlast hnow hpos
    unfold potential
    rw [toNat_tokens_refill hshort, toNat_lastRefillAt_refill hshort, toNat_earned_step,
      ← toNat_step]
    omega

/-- Right after a refill the potential is at most the capacity and one token for each whole
interval to come: a bucket that is not full carries less than one interval with it. -/
theorem potential_refill_le_capacity (hnow : now.toNat ≤ t) :
    (s.refill now interval capacity).potential interval t ≤
      capacity.toNat + (t - now.toNat) / (step interval).toNat := by
  have hpos := step_pos interval
  by_cases hfills : capacity.toNat ≤ s.tokens.toNat + (s.earned now interval).toNat
  · rw [refill_of_fills hfills]
    exact Nat.le_of_eq (potential_full ..)
  · have hshort := Nat.lt_of_not_le hfills
    have hcarry := Nat.mod_lt (now.toNat - s.lastRefillAt.toNat) hpos
    have hspan : t - (now.toNat -
        (now.toNat - s.lastRefillAt.toNat) % (step interval).toNat) ≤
          t - now.toNat + (step interval).toNat := by omega
    have hintervals := Nat.div_le_div_right (c := (step interval).toNat) hspan
    rw [Nat.add_div_right _ hpos] at hintervals
    unfold potential
    rw [toNat_tokens_refill hshort, toNat_lastRefillAt_refill hshort, ← toNat_step]
    omega

/-- A state whose last refill lies a whole filling back is full once it is refilled. -/
theorem refill_of_long_idle
    (h : s.lastRefillAt.toNat + capacity.toNat * (step interval).toNat ≤ now.toNat) :
    s.refill now interval capacity = full capacity now := by
  refine refill_of_fills (Nat.le_trans ?_ (Nat.le_add_left ..))
  rw [toNat_earned_step, Nat.le_div_iff_mul_le (step_pos interval)]
  omega

/-- Refilling a full bucket at its own reading changes nothing. -/
theorem refill_full (capacity now interval : UInt64) :
    (full capacity now).refill now interval capacity = full capacity now :=
  refill_of_fills (Nat.le_add_right ..)

/-- A bucket that stays short of its capacity carries the part of an interval over: its tokens, and
those that come by a later reading, are the same whether or not it was refilled on the way. -/
theorem toNat_earned_refill {later : UInt64} (hlast : s.lastRefillAt.toNat ≤ now.toNat)
    (hlater : now.toNat ≤ later.toNat)
    (hshort : s.tokens.toNat + (s.earned now interval).toNat < capacity.toNat) :
    (s.refill now interval capacity).tokens.toNat +
        ((s.refill now interval capacity).earned later interval).toNat =
      s.tokens.toNat + (s.earned later interval).toNat := by
  have hspan := div_add_div_of_carry hlast hlater (step_pos interval)
  rw [toNat_tokens_refill hshort, toNat_earned_step, toNat_earned_step, toNat_earned_step,
    toNat_lastRefillAt_refill hshort, ← toNat_step]
  omega

/-- Refilling on the way changes nothing: two refills leave what the later one alone leaves. -/
theorem refill_refill {later : UInt64} (hlast : s.lastRefillAt.toNat ≤ now.toNat)
    (hlater : now.toNat ≤ later.toNat) :
    (s.refill now interval capacity).refill later interval capacity =
      s.refill later interval capacity := by
  by_cases hfills : capacity.toNat ≤ s.tokens.toNat + (s.earned now interval).toNat
  · -- Once full, the bucket is full at every later reading, refilled on the way or not.
    have hmore : (s.earned now interval).toNat ≤ (s.earned later interval).toNat := by
      rw [toNat_earned_step, toNat_earned_step]
      exact Nat.div_le_div_right (by omega)
    have hfull : (full capacity now).refill later interval capacity = full capacity later :=
      refill_of_fills (Nat.le_add_right ..)
    rw [refill_of_fills hfills, hfull, refill_of_fills (by omega)]
  · have hshort := Nat.lt_of_not_le hfills
    have hsum := toNat_earned_refill hlast hlater hshort
    by_cases hlate : capacity.toNat ≤ s.tokens.toNat + (s.earned later interval).toNat
    · rw [refill_of_fills hlate, refill_of_fills (by omega)]
    · have hstill := Nat.lt_of_not_le hlate
      have hboth : (s.refill now interval capacity).tokens.toNat +
          ((s.refill now interval capacity).earned later interval).toNat < capacity.toNat := by
        omega
      have htokens : ((s.refill now interval capacity).refill later interval capacity).tokens =
          (s.refill later interval capacity).tokens := by
        apply UInt64.toNat_inj.mp
        rw [toNat_tokens_refill hboth, toNat_tokens_refill hstill, hsum]
      have hrefilled :
          ((s.refill now interval capacity).refill later interval capacity).lastRefillAt =
            (s.refill later interval capacity).lastRefillAt := by
        apply UInt64.toNat_inj.mp
        rw [toNat_lastRefillAt_refill hboth, toNat_lastRefillAt_refill hstill,
          toNat_lastRefillAt_refill hshort, mod_of_carry hlast hlater]
      rw [TokenState.mk.injEq]
      exact ⟨htokens, hrefilled⟩

end FlowControl.TokenState
