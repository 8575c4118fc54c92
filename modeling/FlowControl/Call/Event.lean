import FlowControl.Duration
import FlowControl.Event

/-!
# What guarded calls report
-/

namespace FlowControl

/-- What retries and guarded calls report. -/
inductive CallEvent where
  | rejected (service : String) (attempt : Nat) (remaining : Duration)
  | attemptFailed (service : String) (attempt : Nat) (timedOut retryable : Bool)
  | notRetried (attempt : Nat)
  | exhausted (attempts : Nat)
  | backingOff (attempt : Nat) (delay : Duration)
  deriving DecidableEq, Repr

namespace CallEvent

/-- A note of a retry. -/
def retryNote (level : Level) (message : String) (values : List (String × String)) : Note :=
  ⟨level, "retry", message, values⟩

/-- A note of a guarded call of a service. -/
def serviceNote (message service : String) (attempt : Nat)
    (values : List (String × String)) : Note :=
  ⟨.debug, "resilient", message,
    ("service", service) :: ("attempt", toString attempt) :: values⟩

/-- The note on an event. -/
def note : CallEvent → Note
  | .rejected service attempt remaining =>
    serviceNote "rejected by open circuit" service attempt
      [("remaining_ms", toString remaining.millisLow.toNat)]
  | .attemptFailed service attempt timedOut retryable =>
    serviceNote "attempt failed" service attempt
      [("timeout", toString timedOut), ("retryable", toString retryable)]
  | .notRetried attempt =>
    retryNote .debug "fatal failure, not retrying" [("attempt", toString attempt)]
  | .exhausted attempts =>
    retryNote .warning "retries exhausted" [("attempts", toString attempts)]
  | .backingOff attempt delay =>
    retryNote .debug "retryable failure, backing off"
      [("attempt", toString attempt), ("delay_ms", toString delay.millisLow.toNat)]

end CallEvent

end FlowControl
