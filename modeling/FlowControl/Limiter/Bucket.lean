import FlowControl.Limiter.Lock
import FlowControl.Limiter.StateText

/-!
# Token buckets

A bucket keeps its state in the store and reads and writes it only under its
lock, so takes of many instances do not overlap.  A take saves the refilled state
whether or not it gets its tokens.
-/

namespace FlowControl

/-- A bucket: whose it is and how it is sized. -/
structure Bucket where
  key : LimiterKey
  config : LimiterConfig
  deriving DecidableEq, Repr

namespace Bucket

open Limiter

/-- The stored state, if there is one and it can be read. -/
def load (b : Bucket) : Program (Except LimitError (Option TokenState)) := do
  match ← store (.get b.key.stateKey) with
  | .error fault => pure (.error (.backend fault))
  | .ok none => pure (.ok none)
  | .ok (some text) =>
    match TokenState.parse text with
    | .ok state => pure (.ok (some state))
    | .error fault => pure (.error (.backend (.corrupt b.key.stateKey fault.message)))

/-- Stores a state for as long as states are kept. -/
def save (b : Bucket) (state : TokenState) : Program (Except LimitError Unit) := do
  match ← store (.set b.key.stateKey state.encode b.config.stateTtl) with
  | .error fault => pure (.error (.backend fault))
  | .ok () => pure (.ok ())

/-- The state refilled up to a reading; a bucket without a state is full. -/
def refilled (b : Bucket) (state : Option TokenState) (now : UInt64) : TokenState :=
  (state.getD (.full b.config.capacity now)).refill now b.config.intervalMillis b.config.capacity

/-- Takes tokens while the lock is held. -/
def takeLocked (b : Bucket) (n : UInt64) : Program (Except LimitError Unit) := do
  let now ← Limiter.now
  match ← b.load with
  | .error error => pure (.error error)
  | .ok state =>
    let state := b.refilled state now
    if n ≤ state.tokens then b.save (state.spend n)
    else
      match ← b.save state with
      | .error error => pure (.error error)
      | .ok () =>
        note (.exceeded b.key state.tokens b.config.interval)
        pure (.error (.exceeded b.config.interval))

/-- Takes tokens; the token names the owner of the lock.  If the lock cannot be given
back it expires on its own, and the answer stands. -/
def take (b : Bucket) (token : String) (n : UInt64) : Program (Except LimitError Unit) := do
  match ← acquire b.config.lock b.key.lockKey token with
  | .error error => pure (.error error)
  | .ok guard =>
    let result ← (b.takeLocked n).holding guard
    match ← release guard with
    | .error fault => note (.releaseFailed b.key fault)
    | .ok () => pure ()
    match result with
    | .error error =>
      if error.isBackendFailure then note (.bucketFailed b.key error)
      pure (.error error)
    | .ok () => pure (.ok ())

/-- Fills the bucket and removes its lock, whoever owns it. -/
def reset (b : Bucket) : Program (Except LimitError Unit) := do
  let now ← Limiter.now
  match ← b.save (.full b.config.capacity now) with
  | .error error => pure (.error error)
  | .ok () =>
    match ← forceRelease b.key.lockKey with
    | .error fault => pure (.error (.backend fault))
    | .ok () =>
      note (.bucketReset b.key)
      pure (.ok ())

/-- The stored state as it is, without lock or refill. -/
def peek (b : Bucket) : Program (Except LimitError (Option TokenState)) := b.load

end Bucket

end FlowControl
