import FlowControl.Decimal.Layout
import FlowControl.Duration

/-!
# Randomised delays

Callers that failed together would try again together, so a delay may be spread
evenly over a range around it, in whole milliseconds.  Random words come from the
caller: a choice consumes one word, or two where the first alone would favour the
low end of the range.
-/

namespace FlowControl

/-- A word between `low` and `high`, both included, from rolls of random words.  The high
half of a 128-bit product picks the value; if the low half leaves it uncertain a second
roll decides. -/
def rollBetween {m : Type → Type} [Monad m] (roll : m UInt64) (low high : UInt64) : m UInt64 := do
  let width := high - low + 1
  let first ← roll
  if width = 0 then pure first
  else
    let product := first.toNat * width.toNat
    let top := product / Word.size
    let bottom := product % Word.size
    if Word.size - width.toNat < bottom then
      let second ← roll
      let carry := second.toNat * width.toNat / Word.size
      let top := if Word.size ≤ bottom + carry then top + 1 else top
      pure (low + UInt64.ofNat top)
    else pure (low + UInt64.ofNat top)

/-- How delays are spread. -/
inductive Jitter where
  | none
  | factor (value : Float)
  deriving Repr

/-- A factor that is not within 0 and 1. -/
structure JitterFault where
  factor : Float
  deriving Repr

/-- The wording of a refused factor. -/
def JitterFault.message (f : JitterFault) : String :=
  s!"jitter factor must be within [0, 1], got {Decimal.plainText f.factor}"

namespace Jitter

/-- A spread of a given share of the delay to each side. -/
def ofFactor (value : Float) : Except JitterFault Jitter :=
  if 0.0 ≤ value ∧ value ≤ 1.0 then .ok (.factor value) else .error ⟨value⟩

/-- A fifth of the delay to each side. -/
def standard : Jitter := .factor 0.2

/-- A factor brought within 0 and 1; one that is not a number stays. -/
def bounded (value : Float) : Float :=
  if value < 0.0 then 0.0 else if 1.0 < value then 1.0 else value

/-- The range of milliseconds over which a delay is spread, if it is spread at all. -/
def range (j : Jitter) (delay : Duration) : Option (UInt64 × UInt64) :=
  match j with
  | .none => Option.none
  | .factor value =>
    let value := bounded value
    let millis := delay.millisWord
    if millis = 0 ∨ value == 0.0 then Option.none
    else
      let spread := (millis.toFloat * value).toUInt64
      some (Word.sub millis spread, Word.add millis spread)

/-- A delay spread by rolls of random words. -/
def apply {m : Type → Type} [Monad m] (j : Jitter) (roll : m UInt64) (delay : Duration) :
    m Duration :=
  match j.range delay with
  | Option.none => pure delay
  | some (low, high) => do
    let millis ← rollBetween roll low high
    pure (.ofMillis millis.toNat)

end Jitter

end FlowControl
