import FlowControl.Json.Writer
import FlowControl.Settings

/-!
# The text of settings

Settings are written with every field, in the order of the fields, and code lists
in alphabetical order.  `readsBack` tells whether the text gives the settings back,
up to the last bits of the jitter factor, which decimals need not keep.
-/

namespace FlowControl

/-- The text of a span of time. -/
def Duration.encode (d : Duration) : String :=
  Json.stringText (String.ofList (Duration.Human.format d))

/-- The text of a ratio. -/
def Ratio.encode (r : Ratio) : String :=
  Json.objectText [("threshold", toString r.threshold), ("of", toString r.capacity)]

/-- The text of a set of codes. -/
def CodeSet.encode (s : CodeSet) : String := Json.listText (s.names.map Json.stringText)

/-- The text of a classifier's configuration. -/
def ClassifierConfig.encode (c : ClassifierConfig) : String :=
  Json.objectText [
    ("retryable", c.retryable.encode),
    ("fatal_trips_breaker", c.fatalTripsBreaker.encode),
    ("timeout", Json.stringText c.timeout.name),
    ("unknown_trips_breaker", Json.boolText c.unknownTripsBreaker)]

/-- The text of the limiters' settings. -/
def LimiterSettings.encode (s : LimiterSettings) : String :=
  Json.objectText [
    ("capacity", toString s.capacity),
    ("refill_interval", s.refillInterval.encode),
    ("state_ttl_multiplier", toString s.ttlMultiplier),
    ("lock_ttl", s.lockTtl.encode),
    ("lock_acquire_timeout", s.lockAcquireTimeout.encode),
    ("lock_retry_interval", s.lockRetryInterval.encode)]

/-- The text of the retries' settings. -/
def RetrySettings.encode (s : RetrySettings) : String :=
  Json.objectText [
    ("max_attempts", toString s.maxAttempts),
    ("base_backoff", s.baseBackoff.encode),
    ("max_backoff", s.maxBackoff.encode),
    ("jitter_factor", Decimal.interchangeText s.jitterFactor)]

/-- The text of the breakers' settings. -/
def BreakerSettings.encode (s : BreakerSettings) : String :=
  Json.objectText [
    ("failure_threshold", s.failure.encode),
    ("success_threshold", s.success.encode),
    ("open_delay", s.openDelay.encode)]

/-- Are two retry settings equal?  Factors are compared as numbers. -/
def RetrySettings.same (s t : RetrySettings) : Bool :=
  s.maxAttempts == t.maxAttempts && s.baseBackoff == t.baseBackoff &&
    s.maxBackoff == t.maxBackoff && s.jitterFactor == t.jitterFactor

namespace Settings

/-- The text of settings. -/
def encode (s : Settings) : String :=
  Json.objectText [
    ("service_prefix", Json.stringText s.servicePrefix),
    ("rate_limit", s.limiter.encode),
    ("retry", s.retry.encode),
    ("circuit_breaker", s.breaker.encode),
    ("timeout", s.timeout.encode),
    ("classifier", s.classifier.encode)]

/-- Are two settings equal? -/
def same (s t : Settings) : Bool :=
  s.servicePrefix == t.servicePrefix && s.limiter == t.limiter && s.retry.same t.retry &&
    s.breaker == t.breaker && s.timeout == t.timeout && s.classifier == t.classifier

/-- The settings with another jitter factor. -/
def withJitter (s : Settings) (factor : Float) : Settings :=
  { s with retry := { s.retry with jitterFactor := factor } }

/-- Does the text of the settings give the settings back, if the jitter factor is taken over? -/
def readsBack (s : Settings) : Bool :=
  match parse s.encode with
  | .ok t => s.same (t.withJitter s.retry.jitterFactor)
  | .error _ => false

end Settings

end FlowControl
