import FlowControl.Breaker.Config
import FlowControl.Classifier
import FlowControl.Duration.Human
import FlowControl.Json.Record

/-!
# Settings of a service

All settings in one text: every field has a standard value, so a text lists only
what differs.  Durations are written in the notation for people.
-/

namespace FlowControl

/-- A span of time as a settings text gives it. -/
def Duration.read : Json.Reader Duration := Json.spelled Duration.Human.parse "a duration"

/-- A number of the host's word size. -/
def Json.count : Json.Reader Nat := Json.natural Word.maxNat "usize"

/-- A ratio as a settings text gives it, both parts required. -/
def Ratio.shape : Json.Shape Ratio where
  name := "Ratio"
  fields := [
    Json.field "threshold" Json.count fun n r => { r with threshold := n },
    Json.field "of" Json.count fun n r => { r with capacity := n }]
  base := ⟨0, 0⟩
  complete := true

/-- Settings of the limiters. -/
structure LimiterSettings where
  capacity : Nat
  refillInterval : Duration
  ttlMultiplier : Nat
  lockTtl : Duration
  lockAcquireTimeout : Duration
  lockRetryInterval : Duration
  deriving DecidableEq, Repr

/-- Settings of the retries. -/
structure RetrySettings where
  maxAttempts : Nat
  baseBackoff : Duration
  maxBackoff : Duration
  jitterFactor : Float
  deriving Repr

/-- Settings of the breakers. -/
structure BreakerSettings where
  failure : Ratio
  success : Ratio
  openDelay : Duration
  deriving DecidableEq, Repr

/-- All settings of a service. -/
structure Settings where
  servicePrefix : String
  limiter : LimiterSettings
  retry : RetrySettings
  breaker : BreakerSettings
  timeout : Duration
  classifier : ClassifierConfig
  deriving Repr

namespace LimiterSettings

/-- Two tokens, one back every three seconds, and the standard lock. -/
def standard : LimiterSettings :=
  ⟨2, .ofSecs 3, 2, .ofSecs 2, .ofSecs 1, .ofMillis 10⟩

/-- How the settings of the limiters are given. -/
def shape : Json.Shape LimiterSettings where
  name := "RateLimitSettings"
  fields := [
    Json.field "capacity" (Json.natural Word.maxNat "u64") fun v s => { s with capacity := v },
    Json.field "refill_interval" Duration.read fun v s => { s with refillInterval := v },
    Json.field "state_ttl_multiplier" (Json.natural 4294967295 "u32")
      fun v s => { s with ttlMultiplier := v },
    Json.field "lock_ttl" Duration.read fun v s => { s with lockTtl := v },
    Json.field "lock_acquire_timeout" Duration.read fun v s => { s with lockAcquireTimeout := v },
    Json.field "lock_retry_interval" Duration.read fun v s => { s with lockRetryInterval := v }]
  base := standard
  complete := false

end LimiterSettings

namespace RetrySettings

/-- Four attempts, a tenth of a second doubling up to a second, spread by a fifth. -/
def standard : RetrySettings := ⟨4, .ofMillis 100, .ofSecs 1, 0.2⟩

/-- How the settings of the retries are given. -/
def shape : Json.Shape RetrySettings where
  name := "RetrySettings"
  fields := [
    Json.field "max_attempts" Json.count fun v s => { s with maxAttempts := v },
    Json.field "base_backoff" Duration.read fun v s => { s with baseBackoff := v },
    Json.field "max_backoff" Duration.read fun v s => { s with maxBackoff := v },
    Json.field "jitter_factor" Json.float fun v s => { s with jitterFactor := v }]
  base := standard
  complete := false

end RetrySettings

namespace BreakerSettings

/-- The standard breaker. -/
def standard : BreakerSettings := ⟨⟨4, 10⟩, ⟨6, 10⟩, .ofSecs 5⟩

/-- How the settings of the breakers are given. -/
def shape : Json.Shape BreakerSettings where
  name := "CircuitBreakerSettings"
  fields := [
    Json.field "failure_threshold" Ratio.shape.read fun v s => { s with failure := v },
    Json.field "success_threshold" Ratio.shape.read fun v s => { s with success := v },
    Json.field "open_delay" Duration.read fun v s => { s with openDelay := v }]
  base := standard
  complete := false

end BreakerSettings

namespace Settings

/-- Standard settings of a service that has no prefix yet. -/
def standard : Settings :=
  ⟨"", .standard, .standard, .standard, .ofSecs 10, .standard⟩

instance : Inhabited Settings := ⟨standard⟩

/-- How all settings are given. -/
def shape : Json.Shape Settings where
  name := "ResilienceSettings"
  fields := [
    Json.field "service_prefix" Json.text fun v s => { s with servicePrefix := v },
    Json.field "rate_limit" LimiterSettings.shape.read fun v s => { s with limiter := v },
    Json.field "retry" RetrySettings.shape.read fun v s => { s with retry := v },
    Json.field "circuit_breaker" BreakerSettings.shape.read fun v s => { s with breaker := v },
    Json.field "timeout" Duration.read fun v s => { s with timeout := v },
    Json.field "classifier" ClassifierConfig.shape.read fun v s => { s with classifier := v }]
  base := standard
  complete := false

/-- The settings that a text gives. -/
def parse (text : String) : Except Json.Fault Settings := Json.readText shape.read text

end Settings

end FlowControl
