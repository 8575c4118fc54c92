import FlowControl.Duration.Text

/-!
# Configuration of breakers

A breaker opens once `failure.threshold` of the last `failure.capacity` outcomes
are failures, stays open for a delay, then lets `success.capacity` probes run and
closes again after `success.threshold` successes.
-/

namespace FlowControl

/-- A number of outcomes out of a number of them. -/
structure Ratio where
  threshold : Nat
  capacity : Nat
  deriving DecidableEq, Repr

/-- Can the threshold be reached, and not before the first outcome? -/
def Ratio.isValid (r : Ratio) : Bool := decide (0 < r.threshold ∧ r.threshold ≤ r.capacity)

/-- What is wrong with a breaker's configuration. -/
inductive BreakerFault where
  | failureRatio (ratio : Ratio)
  | successRatio (ratio : Ratio)
  | noOpenDelay
  deriving DecidableEq, Repr

namespace BreakerFault

/-- The wording of a ratio that cannot be used. -/
def ratioMessage (which : String) (r : Ratio) : String :=
  s!"{which} threshold must be within 1..={r.capacity} (got {r.threshold})"

/-- The wording of a fault. -/
def message : BreakerFault → String
  | .failureRatio r => ratioMessage "failure" r
  | .successRatio r => ratioMessage "success" r
  | .noOpenDelay => "open_delay must be > 0"

end BreakerFault

/-- When a breaker opens, for how long, and when it closes again. -/
structure BreakerConfig where
  failure : Ratio
  success : Ratio
  openDelay : Duration
  deriving DecidableEq, Repr

namespace BreakerConfig

/-- Opens at four failures of ten, for five seconds, and closes at six successes of ten. -/
def standard : BreakerConfig := ⟨⟨4, 10⟩, ⟨6, 10⟩, .ofSecs 5⟩

instance : Inhabited BreakerConfig := ⟨standard⟩

/-- The standard breaker where nothing else is given. -/
def build (failure success : Option Ratio) (openDelay : Option Duration) : BreakerConfig :=
  ⟨failure.getD standard.failure, success.getD standard.success,
    openDelay.getD standard.openDelay⟩

/-- Finds the first fault of a configuration. -/
def check (c : BreakerConfig) : Except BreakerFault Unit :=
  if !c.failure.isValid then .error (.failureRatio c.failure)
  else if !c.success.isValid then .error (.successRatio c.success)
  else if c.openDelay.isZero then .error .noOpenDelay
  else .ok ()

/-- The most failures among the probes that still leave room for enough successes. -/
def toleratedFailures (c : BreakerConfig) : Nat := c.success.capacity - c.success.threshold

end BreakerConfig

end FlowControl
