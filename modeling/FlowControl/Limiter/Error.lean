import FlowControl.Decimal.Layout
import FlowControl.Duration.Text
import FlowControl.Store.Call

/-!
# Why a limiter says no

A take fails because the bucket is empty, because its lock or the store could not
be had, or because the limiter is configured wrongly.
-/

namespace FlowControl

/-- What is wrong with a limiter's configuration. -/
inductive ConfigFault where
  | noCapacity
  | shortInterval (interval : Duration)
  | noStateLife
  | noLockLife
  | noLockPause
  | noSweepInterval
  | noBackground
  | other (reason : String)
  deriving DecidableEq, Repr

/-- The wording of a configuration fault. -/
def ConfigFault.message : ConfigFault → String
  | .noCapacity => "capacity must be >= 1"
  | .shortInterval interval => s!"refill interval must be >= 1s (got {interval.text})"
  | .noStateLife => "state ttl multiplier must be >= 1"
  | .noLockLife => "lock ttl must be > 0"
  | .noLockPause => "lock retry interval must be > 0"
  | .noSweepInterval => "gc interval must be > 0"
  | .noBackground => "registry must be built inside a tokio runtime"
  | .other reason => reason

/-- Why a limiter says no. -/
inductive LimitError where
  | exceeded (retryAfter : Duration)
  | lockTimedOut (key : String) (waited : Duration)
  | backend (fault : StoreFault)
  | config (fault : ConfigFault)
  deriving DecidableEq, Repr

/-- Whole seconds for a retry header: the seconds as a float, a half to the even neighbour. -/
def Duration.headerText (d : Duration) : String :=
  Decimal.wholeText (d.secs.toUInt64.toFloat + d.subsecNanos.toUInt64.toFloat / 1000000000.0)

namespace LimitError

/-- The wording of a bucket that is empty. -/
def exceededMessage (retryAfter : Duration) : String :=
  s!"rate limit exceeded, retry after {retryAfter.text}"

/-- The wording of the error. -/
def message : LimitError → String
  | .exceeded retryAfter => exceededMessage retryAfter
  | .lockTimedOut key waited => s!"could not acquire lock {key} within {waited.text}"
  | .backend fault => s!"rate limiter backend unavailable: {fault.message}"
  | .config fault => s!"invalid rate limiter config: {fault.message}"

/-- Is the bucket empty? -/
def isExceeded : LimitError → Bool
  | .exceeded _ => true
  | _ => false

/-- Could the lock or the store not be had? -/
def isBackendFailure : LimitError → Bool
  | .lockTimedOut .. | .backend _ => true
  | _ => false

/-- When to try again, if the bucket is empty. -/
def retryAfter? : LimitError → Option Duration
  | .exceeded retryAfter => some retryAfter
  | _ => none

/-- The retry header, if the bucket is empty. -/
def header? (e : LimitError) : Option String := e.retryAfter?.map Duration.headerText

/-- The wording of the cause, if the error has one. -/
def cause? : LimitError → Option String
  | .backend fault => some fault.message
  | _ => none

end LimitError

end FlowControl
