import FlowControl.Call.Wrapper
import FlowControl.Limiter.Config
import FlowControl.Settings

/-!
# What settings describe

From settings the configurations of limiters, retries, breakers and calls are
built.  Each builder reports the first fault of its section.
-/

namespace FlowControl

/-- What is wrong with settings, by section. -/
inductive SettingsFault where
  | noServicePrefix
  | limiter (fault : ConfigFault)
  | retry (fault : RetryFault)
  | backoff (fault : BackoffFault)
  | jitter (fault : JitterFault)
  | breaker (fault : BreakerFault)
  | timeout (fault : TimeoutFault)
  deriving Repr

/-- The wording of a fault. -/
def SettingsFault.message : SettingsFault → String
  | .noServicePrefix => "service_prefix must not be empty"
  | .limiter fault => (LimitError.config fault).message
  | .retry fault => fault.message
  | .backoff fault => fault.message
  | .jitter fault => fault.message
  | .breaker fault => fault.message
  | .timeout fault => fault.message

/-- The standard policy where nothing else is given: schedule, jitter and number of attempts
are checked in this order. -/
def RetryPolicy.build (attempts : Option Nat) (schedule : Option (Except BackoffFault Backoff))
    (spread : Option (Except JitterFault Jitter)) : Except SettingsFault RetryPolicy := do
  let backoff ← (schedule.getD (.ok standard.backoff)).mapError .backoff
  let jitter ← (spread.getD (.ok standard.jitter)).mapError .jitter
  (checked ⟨attempts.getD standard.maxAttempts, backoff, jitter⟩).mapError .retry

/-- The limiter of a section. -/
def LimiterSettings.config (s : LimiterSettings) : Except ConfigFault LimiterConfig :=
  LimiterConfig.build (UInt64.ofNat s.capacity) s.refillInterval
    (some (UInt32.ofNat s.ttlMultiplier))
    (some ⟨s.lockTtl, s.lockAcquireTimeout, s.lockRetryInterval⟩)

/-- The retry policy of a section. -/
def RetrySettings.policy (s : RetrySettings) : Except SettingsFault RetryPolicy :=
  RetryPolicy.build (some s.maxAttempts) (some (Backoff.doubling s.baseBackoff s.maxBackoff))
    (some (Jitter.ofFactor s.jitterFactor))

/-- The breaker of a section. -/
def BreakerSettings.config (s : BreakerSettings) : BreakerConfig :=
  ⟨s.failure, s.success, s.openDelay⟩

namespace Settings

/-- The configuration of the limiters. -/
def limiterConfig (s : Settings) : Except SettingsFault LimiterConfig :=
  s.limiter.config.mapError .limiter

/-- The policy of the retries. -/
def retryPolicy (s : Settings) : Except SettingsFault RetryPolicy := s.retry.policy

/-- The configuration of the breakers, which may have faults. -/
def breakerConfig (s : Settings) : BreakerConfig := s.breaker.config

/-- The limit on an attempt. -/
def timeoutPolicy (s : Settings) : Except SettingsFault TimeoutPolicy :=
  (TimeoutPolicy.ofLimit s.timeout).mapError .timeout

/-- Finds the first fault of any section. -/
def check (s : Settings) : Except SettingsFault Unit := do
  if s.servicePrefix = "" then throw .noServicePrefix
  let _ ← s.limiterConfig
  let _ ← s.retryPolicy
  let _ ← s.breakerConfig.check.mapError .breaker
  let _ ← s.timeoutPolicy
  pure ()

/-- The guard of calls of a service, and the breaker it uses, which has the same name. -/
def wrapper (s : Settings) (name : String) : Except SettingsFault (Wrapper × Breaker) := do
  let breaker ← (Breaker.checked s.breakerConfig).mapError .breaker
  let retry ← s.retryPolicy
  let timeout ← s.timeoutPolicy
  pure (⟨name, retry, timeout, s.classifier.classify⟩, breaker)

end Settings

end FlowControl
