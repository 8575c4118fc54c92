import FlowControl.Duration.Text

/-!
# Delays between attempts

A schedule says how long to wait after attempt `n`.  The exponential one doubles
from its base and stops at its cap; no schedule waits longer than an hour, and
nothing is waited for before the first attempt.
-/

namespace FlowControl

/-- When an exponential schedule is refused. -/
inductive BackoffFault where
  | capNotPositive
  | capBelowBase (base cap : Duration)
  deriving DecidableEq, Repr

/-- The wording of a refusal. -/
def BackoffFault.message : BackoffFault → String
  | .capNotPositive => "backoff max must be greater than zero"
  | .capBelowBase base cap => s!"backoff max ({cap.text}) must be >= base ({base.text})"

/-- A schedule of delays. -/
inductive Backoff where
  | constant (delay : Duration)
  | exponential (base cap : Duration)
  deriving DecidableEq, Repr

namespace Backoff

/-- No schedule waits longer than this. -/
def longest : Duration := .ofSecs 3600

/-- The same delay every time. -/
def always (delay : Duration) : Backoff := .constant (min delay longest)

/-- Delays that double from `base` up to `cap`. -/
def doubling (base cap : Duration) : Except BackoffFault Backoff :=
  if cap.isZero then .error .capNotPositive
  else if cap < base then .error (.capBelowBase base cap)
  else .ok (.exponential base (min cap longest))

/-- From a tenth of a second, doubling up to a second. -/
def standard : Backoff := .exponential (.ofMillis 100) (.ofSecs 1)

/-- The largest value of 128 bits, at which sums of the doubling stop. -/
def widest : Nat := 340282366920938463463374607431768211455

/-- Two to the power of a number, stopping at 128 bits; large powers are not computed. -/
def powerOfTwo (k : Nat) : Nat := if k < 128 then Nat.pow 2 k else widest

/-- The delay after attempt `n`. -/
def delay (b : Backoff) (attempt : Nat) : Duration :=
  if attempt = 0 then .zero
  else
    match b with
    | .constant delay => delay
    | .exponential base cap =>
      let steps := min (attempt - 1) 4294967295
      let nanos := min (base.nanos * powerOfTwo steps) widest
      .ofNanos (min (min nanos cap.nanos) Word.maxNat)

end Backoff

end FlowControl
