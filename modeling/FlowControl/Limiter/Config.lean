import FlowControl.Limiter.Error

/-!
# Configuration of limiters

A limiter has a capacity, an interval after which one token comes back, a
multiple of that interval for which its state is kept, and the timing of its
lock.  `check` finds the first fault of a configuration; the builders refuse a
configuration that has one.
-/

namespace FlowControl

/-- How long a lock lasts, how long it is waited for, and in which steps. -/
structure LockConfig where
  ttl : Duration
  acquireTimeout : Duration
  retryInterval : Duration
  deriving DecidableEq, Repr

namespace LockConfig

/-- A lock lasts two seconds and is waited for one second in steps of ten milliseconds. -/
def standard : LockConfig := ⟨.ofSecs 2, .ofSecs 1, .ofMillis 10⟩

instance : Inhabited LockConfig := ⟨standard⟩

/-- The standard timing where nothing else is given. -/
def build (ttl acquireTimeout retryInterval : Option Duration) : LockConfig :=
  ⟨ttl.getD standard.ttl, acquireTimeout.getD standard.acquireTimeout,
    retryInterval.getD standard.retryInterval⟩

/-- Finds the first fault of a lock's timing. -/
def check (c : LockConfig) : Except ConfigFault Unit :=
  if c.ttl.isZero then .error .noLockLife
  else if c.retryInterval.isZero then .error .noLockPause
  else .ok ()

end LockConfig

/-- The size and timing of a limiter. -/
structure LimiterConfig where
  capacity : UInt64
  interval : Duration
  ttlMultiplier : UInt32
  lock : LockConfig
  deriving DecidableEq, Repr

namespace LimiterConfig

/-- Two tokens, one of them back every three seconds. -/
def standard : LimiterConfig := ⟨2, .ofSecs 3, 2, .standard⟩

instance : Inhabited LimiterConfig := ⟨standard⟩

/-- Finds the first fault of a configuration. -/
def check (c : LimiterConfig) : Except ConfigFault Unit :=
  if c.capacity = 0 then .error .noCapacity
  else if c.interval < .ofSecs 1 then .error (.shortInterval c.interval)
  else if c.ttlMultiplier = 0 then .error .noStateLife
  else c.lock.check

/-- The configuration itself, if it has no fault. -/
def checked (c : LimiterConfig) : Except ConfigFault LimiterConfig :=
  c.check.map fun _ => c

/-- A configuration of this size, with standard lock and state life. -/
def sized (capacity : UInt64) (interval : Duration) : Except ConfigFault LimiterConfig :=
  checked { standard with capacity, interval }

/-- Keeps the state for another multiple of the interval. -/
def withTtlMultiplier (c : LimiterConfig) (multiplier : UInt32) :
    Except ConfigFault LimiterConfig :=
  checked { c with ttlMultiplier := multiplier }

/-- Uses another timing for the lock. -/
def withLock (c : LimiterConfig) (lock : LockConfig) : Except ConfigFault LimiterConfig :=
  checked { c with lock }

/-- A configuration of this size, with other state life and lock where they are given. -/
def build (capacity : UInt64) (interval : Duration) (multiplier : Option UInt32)
    (lock : Option LockConfig) : Except ConfigFault LimiterConfig := do
  let c ← sized capacity interval
  let c ← (multiplier.map c.withTtlMultiplier).getD (pure c)
  (lock.map c.withLock).getD (pure c)

/-- How long a state is kept without being written again. -/
def stateTtl (c : LimiterConfig) : Duration := c.interval.scale c.ttlMultiplier.toNat

/-- The interval in whole milliseconds, as refills count it. -/
def intervalMillis (c : LimiterConfig) : UInt64 := c.interval.millisWord

end LimiterConfig

end FlowControl
