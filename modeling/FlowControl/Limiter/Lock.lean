import FlowControl.Limiter.Config
import FlowControl.Limiter.Program

/-!
# Locks in the store

A lock is a key that holds its owner's token for a limited time.  It is taken by
a write that succeeds only if the key has no value, and given back by a delete
that succeeds only if the key still holds the token, so an owner whose lock has
expired cannot remove the next owner's.
-/

namespace FlowControl.Limiter

/-- The next pause after having waited: the retry interval, or the time left if that is
shorter. -/
def nextPause (config : LockConfig) (waited : Duration) : Duration :=
  min config.retryInterval (config.acquireTimeout.sub waited)

@[simp] theorem nanos_nextPause (config : LockConfig) (waited : Duration) :
    (nextPause config waited).nanos =
      min config.retryInterval.nanos (config.acquireTimeout.nanos - waited.nanos) := by
  simp [nextPause]

/-- Each pause shortens the time left. -/
theorem nextPause_decreases {config : LockConfig} {waited : Duration}
    (h : ¬ (nextPause config waited).isZero = true) :
    config.acquireTimeout.nanos - (waited.add (nextPause config waited)).nanos <
      config.acquireTimeout.nanos - waited.nanos := by
  rw [Duration.isZero_iff, nanos_nextPause] at h
  have hw := waited.nanos_le
  have ht := config.acquireTimeout.nanos_le
  simp only [Duration.nanos_add, nanos_nextPause]
  omega

/-- Tries to take a lock, `waited` after the first try, until the time to wait is used up. -/
def acquireFrom (config : LockConfig) (key token : String) (waited : Duration) :
    Program (Except LimitError Guard) := do
  match ← store (.setIfAbsent key token config.ttl) with
  | .error fault => pure (.error (.backend fault))
  | .ok true =>
    (note (.lockAcquired key)).holding ⟨key, token⟩
    pure (.ok ⟨key, token⟩)
  | .ok false =>
    if (nextPause config waited).isZero then
      note (.lockTimedOut key waited)
      pure (.error (.lockTimedOut key waited))
    else
      pause (nextPause config waited)
      acquireFrom config key token (waited.add (nextPause config waited))
termination_by config.acquireTimeout.nanos - waited.nanos
decreasing_by exact nextPause_decreases (by assumption)

/-- Takes a lock for the owner of a token. -/
def acquire (config : LockConfig) (key token : String) : Program (Except LimitError Guard) :=
  acquireFrom config key token .zero

/-- Gives a lock back. -/
def release (guard : Guard) : Program (Except StoreFault Unit) := do
  match ← (store (.deleteIfEqual guard.key guard.token)).holding guard with
  | .error fault => pure (.error fault)
  | .ok true => pure (.ok ())
  | .ok false =>
    note (.lockExpired guard.key)
    pure (.ok ())

/-- Removes a lock that its owner dropped without giving it back. -/
def giveUp (guard : Guard) : Program Unit := do
  match ← store (.deleteIfEqual guard.key guard.token) with
  | .error fault => note (.lockNotGivenUp guard.key fault)
  | .ok _ => pure ()

/-- Removes a lock whoever owns it. -/
def forceRelease (key : String) : Program (Except StoreFault Unit) := store (.delete key)

end FlowControl.Limiter
