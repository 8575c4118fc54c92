import FlowControl.Proofs.Limiter.Refill
import FlowControl.Proofs.Limiter.TakeProgram

/-!
# Refills and takes never leave the words

The operators of words go round at the ends.  Here they are replaced by checked ones, which give
nothing where the exact result is no word, or where there is no result at all.  A refill with
checked operators is the refill, whatever was stored and at whatever reading: tokens above the
capacity, a last refill that lies ahead, an interval of zero.  A take with checked operators is the
take, whatever the store answers.

Saturating operators stay as they are: they are meant to stop at the ends.
-/

namespace FlowControl

namespace Word

variable {a b c : UInt64}

/-- A sum, unless it is no word. -/
def add? (a b : UInt64) : Option UInt64 := if a.toNat + b.toNat < size then some (a + b) else none

/-- A difference, unless it lies below zero. -/
def sub? (a b : UInt64) : Option UInt64 := if b ≤ a then some (a - b) else none

/-- A quotient, unless it is one by zero. -/
def div? (a b : UInt64) : Option UInt64 := if b = 0 then none else some (a / b)

/-- A remainder, unless it is one of a division by zero. -/
def mod? (a b : UInt64) : Option UInt64 := if b = 0 then none else some (a % b)

/-- A checked sum is the exact one. -/
theorem add?_eq_some_iff : add? a b = some c ↔ c.toNat = a.toNat + b.toNat := by
  have hsize : size = 2 ^ 64 := rfl
  have hc := c.toNat_lt
  unfold add?
  rw [hsize]
  split
  · next h =>
    rw [Option.some_inj, ← UInt64.toNat_inj, UInt64.toNat_add, Nat.mod_eq_of_lt h, eq_comm]
  · next h => exact ⟨nofun, fun heq => absurd (heq ▸ hc) h⟩

/-- A checked difference is the exact one. -/
theorem sub?_eq_some_iff : sub? a b = some c ↔ c.toNat + b.toNat = a.toNat := by
  unfold sub?
  split
  · next h =>
    have hle := UInt64.le_iff_toNat_le.mp h
    rw [Option.some_inj, ← UInt64.toNat_inj, UInt64.toNat_sub_of_le a b h]
    omega
  · next h =>
    have hlt := UInt64.lt_iff_toNat_lt.mp (UInt64.not_le.mp h)
    exact ⟨nofun, fun heq => by omega⟩

end Word

namespace TokenState

variable {s : TokenState} {now interval capacity n : UInt64}

/-- A refill with checked operators. -/
def refillChecked (s : TokenState) (now interval capacity : UInt64) : Option TokenState := do
  let added ← Word.div? (s.elapsed now) (step interval)
  if capacity ≤ Word.add s.tokens added then
    pure (full capacity now)
  else
    let tokens ← Word.add? s.tokens added
    let part ← Word.mod? (s.elapsed now) (step interval)
    let last ← Word.sub? now part
    pure ⟨tokens, last⟩

/-- The removal of tokens with checked operators. -/
def spendChecked (s : TokenState) (n : UInt64) : Option TokenState := do
  let tokens ← Word.sub? s.tokens n
  pure { s with tokens }

/-- No operator of a refill leaves the words. -/
theorem refillChecked_eq (s : TokenState) (now interval capacity : UInt64) :
    s.refillChecked now interval capacity = some (s.refill now interval capacity) := by
  have hstep := step_ne_zero interval
  have hadded : Word.div? (s.elapsed now) (step interval) = some (s.earned now interval) :=
    if_neg hstep
  have hpart : Word.mod? (s.elapsed now) (step interval) =
      some (s.elapsed now % step interval) := if_neg hstep
  rw [refillChecked, hadded, Option.bind_eq_bind, Option.bind_some]
  by_cases hfills : capacity ≤ Word.add s.tokens (s.earned now interval)
  · rw [if_pos hfills, refill_of_fills ((fills_iff ..).mp hfills)]
    rfl
  · -- The branch that adds is taken only if the sum stays below the capacity, which is a word; and
    -- the part of an interval is part of the time that has passed by the reading.
    have hshort := Nat.lt_of_not_le (mt (fills_iff s now interval capacity).mpr hfills)
    have htokens := Word.add?_eq_some_iff.mpr (toNat_tokens_refill hshort)
    have hlast : Word.sub? now (s.elapsed now % step interval) =
        some (s.refill now interval capacity).lastRefillAt := by
      refine Word.sub?_eq_some_iff.mpr ?_
      have hle := Nat.mod_le (now.toNat - s.lastRefillAt.toNat) (max interval.toNat 1)
      rw [toNat_lastRefillAt_refill hshort, UInt64.toNat_mod, toNat_step, elapsed, Word.toNat_sub]
      omega
    rw [if_neg hfills, htokens, Option.bind_some, hpart, Option.bind_some, hlast]
    rfl

/-- Tokens that are there can be removed. -/
theorem spendChecked_of_le (h : n ≤ s.tokens) : s.spendChecked n = some (s.spend n) := by
  rw [spendChecked, Word.sub?, if_pos h]
  rfl

end TokenState

namespace Bucket

open Limiter

/-- A take under the lock with checked operators; it has no result if one of them has none. -/
def takeLockedChecked (b : Bucket) (n : UInt64) : Program (Option (Except LimitError Unit)) := do
  let now ← Limiter.now
  match ← b.load with
  | .error error => pure (some (.error error))
  | .ok stored =>
    let state := stored.getD (.full b.config.capacity now)
    match state.refillChecked now b.config.intervalMillis b.config.capacity with
    | none => pure none
    | some state =>
      if n ≤ state.tokens then
        match state.spendChecked n with
        | none => pure none
        | some state => some <$> b.save state
      else
        match ← b.save state with
        | .error error => pure (some (.error error))
        | .ok () =>
          note (.exceeded b.key state.tokens b.config.interval)
          pure (some (.error (.exceeded b.config.interval)))

/-- No operator of a take leaves the words, whatever the store answers. -/
theorem takeLockedChecked_eq (b : Bucket) (n : UInt64) :
    b.takeLockedChecked n = some <$> b.takeLocked n := by
  rw [takeLocked_eq, Routine.map_eq, Routine.bind_assoc]
  refine congrArg (Routine.bind Limiter.now) (funext fun now => ?_)
  rw [Routine.bind_assoc]
  refine congrArg (Routine.bind b.load) (funext fun loaded => ?_)
  cases loaded with
  | error error => rfl
  | ok stored =>
      simp only [TokenState.refillChecked_eq]
      unfold charge
      split
      · next h =>
        have henough : n ≤ (b.refilled stored now).tokens := h
        rw [if_pos henough, TokenState.spendChecked_of_le h]
        rfl
      · next h =>
        have hshort : ¬ n ≤ (b.refilled stored now).tokens := h
        rw [if_neg hshort, Routine.bind_assoc]
        refine congrArg (Routine.bind (b.save (b.refilled stored now))) (funext fun saved => ?_)
        cases saved with
        | error error | ok => rfl

end Bucket

/-- Whatever state is stored, also one with more tokens than the capacity or with a last refill that
lies ahead, and whatever the reading, the interval and the capacity: no operator of a refill leaves
the words or divides by zero.  The state fits at the reading; it is full or carries less than one
interval; and no tokens are lost but for those above the capacity.  So no operator of a take leaves
the words either, whatever the store answers. -/
theorem TokenState.refill_stays_in_words (s : TokenState) (now interval capacity : UInt64) :
    let refilled := s.refill now interval capacity
    s.refillChecked now interval capacity = some refilled ∧
      refilled.tokens ≤ capacity ∧ refilled.lastRefillAt ≤ now ∧
      (refilled.tokens = capacity ∧ refilled.lastRefillAt = now ∨
        now.toNat - refilled.lastRefillAt.toNat < max interval.toNat 1) ∧
      min s.tokens.toNat capacity.toNat ≤ refilled.tokens.toNat ∧
      ∀ (b : Bucket) (n : UInt64), b.takeLockedChecked n = some <$> b.takeLocked n := by
  intro refilled
  have hfits : refilled.Fits capacity now := fits_refill s now interval capacity
  refine ⟨refillChecked_eq s now interval capacity, UInt64.le_iff_toNat_le.mpr hfits.tokens_le,
    UInt64.le_iff_toNat_le.mpr hfits.lastRefillAt_le, ?_,
    min_le_tokens_refill s now interval capacity, Bucket.takeLockedChecked_eq⟩
  rcases refill_eq_full_or_carries s now interval capacity with hfull | hcarries
  · have hfull : refilled = full capacity now := hfull
    rw [hfull]
    exact .inl ⟨rfl, rfl⟩
  · exact .inr hcarries

/-- More tokens than a word can still add to, a last refill that lies ahead, no interval. -/
example : (TokenState.mk 18446744073709551615 2000).refillChecked 1000 0 3 = some ⟨3, 1000⟩ := by
  decide

end FlowControl
