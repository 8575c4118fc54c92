import FlowControl.Word

/-!
# The tokens of a bucket

A bucket holds a number of tokens and the reading at which it was last refilled.
A refill adds one token for each whole interval since then and keeps the rest of
the time, unless the bucket is full.  No step overflows, whatever was stored: the
lemmas give the refilled state in `Nat`.
-/

namespace FlowControl

/-- The tokens left and the reading up to which they were counted. -/
structure TokenState where
  tokens : UInt64
  lastRefillAt : UInt64
  deriving DecidableEq, Repr

namespace TokenState

/-- A bucket that is full at a reading. -/
def full (capacity now : UInt64) : TokenState := ⟨capacity, now⟩

/-- The length of an interval as refills count it: never zero. -/
def step (interval : UInt64) : UInt64 := if interval = 0 then 1 else interval

/-- The milliseconds since the last refill, none if that lies ahead. -/
def elapsed (s : TokenState) (now : UInt64) : UInt64 := Word.sub now s.lastRefillAt

/-- The whole intervals since the last refill. -/
def earned (s : TokenState) (now interval : UInt64) : UInt64 := s.elapsed now / step interval

/-- Adds one token for each whole interval since the last refill, up to the capacity. -/
def refill (s : TokenState) (now interval capacity : UInt64) : TokenState :=
  let added := s.earned now interval
  if capacity ≤ Word.add s.tokens added then full capacity now
  else ⟨s.tokens + added, now - s.elapsed now % step interval⟩

/-- The state and what becomes of it by refills one after another, each at a reading and with
an interval and a capacity. -/
def refillAll (s : TokenState) : List (UInt64 × UInt64 × UInt64) → List TokenState
  | [] => [s]
  | (now, interval, capacity) :: more => s :: (s.refill now interval capacity).refillAll more

/-- Removes tokens that are there. -/
def spend (s : TokenState) (n : UInt64) : TokenState := { s with tokens := s.tokens - n }

/-! ## The refilled state in natural numbers -/

theorem toNat_step (interval : UInt64) : (step interval).toNat = max interval.toNat 1 := by
  unfold step
  split
  · next h => simp [h]
  · next h =>
    have : interval.toNat ≠ 0 := fun h0 => h (UInt64.toNat_inj.mp (by simpa using h0))
    omega

theorem toNat_earned (s : TokenState) (now interval : UInt64) :
    (s.earned now interval).toNat =
      (now.toNat - s.lastRefillAt.toNat) / max interval.toNat 1 := by
  simp [earned, elapsed, toNat_step]

/-- When the bucket fills up. -/
theorem fills_iff (s : TokenState) (now interval capacity : UInt64) :
    capacity ≤ Word.add s.tokens (s.earned now interval) ↔
      capacity.toNat ≤ s.tokens.toNat + (s.earned now interval).toNat := by
  have := Word.toNat_le_maxNat capacity
  rw [UInt64.le_iff_toNat_le, Word.toNat_add]
  omega

theorem refill_of_fills {s : TokenState} {now interval capacity : UInt64}
    (h : capacity.toNat ≤ s.tokens.toNat + (s.earned now interval).toNat) :
    s.refill now interval capacity = full capacity now := by
  simp [refill, (fills_iff s now interval capacity).mpr h]

/-- A bucket that stays short of its capacity gains the earned tokens without overflow. -/
theorem toNat_tokens_refill {s : TokenState} {now interval capacity : UInt64}
    (h : s.tokens.toNat + (s.earned now interval).toNat < capacity.toNat) :
    (s.refill now interval capacity).tokens.toNat =
      s.tokens.toNat + (s.earned now interval).toNat := by
  have hn : ¬ capacity ≤ Word.add s.tokens (s.earned now interval) := by
    rw [fills_iff]
    omega
  have := capacity.toNat_lt
  simp only [refill, hn, if_false, UInt64.toNat_add]
  omega

/-- A bucket that stays short of its capacity keeps the time beyond the last whole interval. -/
theorem toNat_lastRefillAt_refill {s : TokenState} {now interval capacity : UInt64}
    (h : s.tokens.toNat + (s.earned now interval).toNat < capacity.toNat) :
    (s.refill now interval capacity).lastRefillAt.toNat =
      now.toNat - (now.toNat - s.lastRefillAt.toNat) % max interval.toNat 1 := by
  have hn : ¬ capacity ≤ Word.add s.tokens (s.earned now interval) := by
    rw [fills_iff]
    omega
  have hm : (s.elapsed now % step interval).toNat =
      (now.toNat - s.lastRefillAt.toNat) % max interval.toNat 1 := by
    rw [UInt64.toNat_mod, toNat_step]
    simp [elapsed]
  have hle : (s.elapsed now % step interval).toNat ≤ now.toNat := by
    rw [hm]
    exact Nat.le_trans (Nat.mod_le ..) (Nat.sub_le ..)
  simp only [refill, hn, if_false]
  rw [UInt64.toNat_sub_of_le _ _ (UInt64.le_iff_toNat_le.mpr hle), hm]

end TokenState

end FlowControl
