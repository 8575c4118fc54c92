import FlowControl.Event
import FlowControl.Limiter.Error
import FlowControl.Limiter.Key

/-!
# What limiters report
-/

namespace FlowControl

/-- What locks, buckets, the registry and the gate report. -/
inductive LimiterEvent where
  | lockAcquired (key : String)
  | lockTimedOut (key : String) (waited : Duration)
  | lockExpired (key : String)
  | lockNotGivenUp (key : String) (fault : StoreFault)
  | lockLeftToExpire (key : String)
  | exceeded (key : LimiterKey) (tokens : UInt64) (retryAfter : Duration)
  | releaseFailed (key : LimiterKey) (fault : StoreFault)
  | bucketFailed (key : LimiterKey) (error : LimitError)
  | bucketReset (key : LimiterKey)
  | created (key : LimiterKey)
  | reclaiming (key : LimiterKey)
  | reclaimed (removed remaining : Nat)
  | sweeperStopped
  | failingOpen (key : LimiterKey) (error : LimitError)
  | rejecting (key : LimiterKey) (error : LimitError)
  deriving DecidableEq, Repr

namespace LimiterEvent

/-- A note of a lock. -/
def lockNote (level : Level) (message key : String) (values : List (String × String)) : Note :=
  ⟨level, "lock", message, ("key", key) :: values⟩

/-- A note of a bucket or of the gate. -/
def bucketNote (level : Level) (message : String) (key : LimiterKey)
    (values : List (String × String)) : Note :=
  ⟨level, "rate_limit", message, ("key", key.text) :: values⟩

/-- A note of the registry. -/
def registryNote (level : Level) (message : String) (values : List (String × String)) : Note :=
  ⟨level, "registry", message, values⟩

/-- The note on an event. -/
def note : LimiterEvent → Note
  | .lockAcquired key => lockNote .trace "lock acquired" key []
  | .lockTimedOut key waited =>
    lockNote .warning "lock acquisition timed out" key
      [("waited_ms", toString waited.millisLow.toNat)]
  | .lockExpired key => lockNote .warning "lock expired before release" key []
  | .lockNotGivenUp key fault =>
    lockNote .warning "abandoned lock release failed" key [("error", fault.message)]
  | .lockLeftToExpire key =>
    lockNote .warning "no runtime to release abandoned lock; it will expire" key []
  | .exceeded key tokens retryAfter =>
    bucketNote .debug "rate limit exceeded" key
      [("tokens", toString tokens.toNat), ("retry_after_ms", toString retryAfter.millisLow.toNat)]
  | .releaseFailed key fault =>
    bucketNote .warning "lock release failed" key [("error", fault.message)]
  | .bucketFailed key error =>
    bucketNote .warning "bucket backend failure" key [("error", error.message)]
  | .bucketReset key => bucketNote .debug "bucket reset" key []
  | .created key => registryNote .debug "creating limiter" [("key", key.text)]
  | .reclaiming key => registryNote .trace "reclaiming idle limiter" [("key", key.text)]
  | .reclaimed removed remaining =>
    registryNote .debug "reclaimed idle limiters"
      [("removed", toString removed), ("remaining", toString remaining)]
  | .sweeperStopped => registryNote .debug "reclamation loop stopped" []
  | .failingOpen key error =>
    bucketNote .warning "limiter unavailable, failing open" key [("error", error.message)]
  | .rejecting key error =>
    bucketNote .warning "limiter unavailable, rejecting" key [("error", error.message)]

end LimiterEvent

end FlowControl
