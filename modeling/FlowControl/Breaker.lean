import FlowControl.Breaker.Config
import FlowControl.Breaker.Event
import FlowControl.Breaker.Window

/-!
# A circuit breaker

A closed breaker admits every call and watches their last outcomes; an open one
rejects calls until its delay has passed; a half-open one admits a limited number
of probes at once and decides by their outcomes.  Each change of phase, and each
reset, starts a new generation.  A permit belongs to the generation that issued
it, so an outcome that comes late changes nothing.

The breaker has no clock: an operation that needs the time is given a reading.
-/

namespace FlowControl

/-- What a breaker is doing. -/
inductive Phase where
  | closed (window : OutcomeWindow)
  | opened (since : UInt64)
  | halfOpen (window : OutcomeWindow) (inFlight : Nat)
  deriving DecidableEq, Repr

/-- The kinds of phases. -/
inductive PhaseKind where
  | closed
  | opened
  | halfOpen
  deriving DecidableEq, Repr

/-- The kind of a phase. -/
def Phase.kind : Phase → PhaseKind
  | .closed _ => .closed
  | .opened _ => .opened
  | .halfOpen .. => .halfOpen

/-- The right to make one call, issued in some generation. -/
structure Permit where
  generation : UInt64
  isProbe : Bool
  deriving DecidableEq, Repr

/-- A breaker: its configuration, its phase and the number of phases before, in 64 bits. -/
structure Breaker where
  config : BreakerConfig
  phase : Phase
  generation : UInt64
  deriving DecidableEq, Repr

namespace Breaker

/-- What an operation answers, the breaker after it, and what the breaker reports. -/
structure Step (α : Type) where
  answer : α
  breaker : Breaker
  events : List BreakerEvent

/-- A phase that admits everything and has seen nothing. -/
def freshClosed (c : BreakerConfig) : Phase := .closed (.empty c.failure.capacity)

/-- A phase that admits probes and has seen none. -/
def freshHalfOpen (c : BreakerConfig) : Phase := .halfOpen (.empty c.success.capacity) 0

/-- A closed breaker. -/
def ofConfig (config : BreakerConfig) : Breaker := ⟨config, freshClosed config, 0⟩

/-- A closed breaker, if its configuration has no fault. -/
def checked (config : BreakerConfig) : Except BreakerFault Breaker :=
  config.check.map fun _ => ofConfig config

/-- Begins another phase. -/
def enter (b : Breaker) (phase : Phase) : Breaker :=
  { b with phase, generation := b.generation + 1 }

/-- How long a breaker that opened at `since` still rejects calls. -/
def openRemaining (b : Breaker) (since now : UInt64) : Duration :=
  .ofMillis (Word.sub b.config.openDelay.millisWord (Word.sub now since)).toNat

/-- Begins the half-open phase of an open breaker whose delay has passed. -/
def wake (b : Breaker) (now : UInt64) : Step Unit :=
  match b.phase with
  | .opened since =>
    if (b.openRemaining since now).isZero then
      ⟨(), b.enter (freshHalfOpen b.config), [.halfOpened]⟩
    else ⟨(), b, []⟩
  | _ => ⟨(), b, []⟩

/-- Asks for a permit.  A rejection says how long the breaker stays open; it is zero
if the breaker is half-open and has no room for another probe. -/
def tryAcquire (b : Breaker) (now : UInt64) : Step (Except Duration Permit) :=
  let woken := b.wake now
  let b := woken.breaker
  match b.phase with
  | .closed _ => ⟨.ok ⟨b.generation, false⟩, b, woken.events⟩
  | .opened since => ⟨.error (b.openRemaining since now), b, woken.events⟩
  | .halfOpen window inFlight =>
    if b.config.success.capacity ≤ inFlight then ⟨.error .zero, b, woken.events⟩
    else
      ⟨.ok ⟨b.generation, true⟩, { b with phase := .halfOpen window (inFlight + 1) },
        woken.events ++ [.probeAdmitted (inFlight + 1)]⟩

/-- Takes an outcome into a closed window. -/
def recordClosed (b : Breaker) (window : OutcomeWindow) (failed : Bool) (now : UInt64) :
    Step Unit :=
  let window := window.push failed
  if b.config.failure.threshold ≤ window.failures then
    ⟨(), b.enter (.opened now), [.opened window.failures window.size]⟩
  else ⟨(), { b with phase := .closed window }, []⟩

/-- Takes an outcome into a half-open window while some probes are still out. -/
def recordHalfOpen (b : Breaker) (window : OutcomeWindow) (inFlight : Nat) (failed : Bool)
    (now : UInt64) : Step Unit :=
  let window := window.push failed
  if b.config.success.threshold ≤ window.successes then
    ⟨(), b.enter (freshClosed b.config), [.closed]⟩
  else if b.config.toleratedFailures < window.failures then
    ⟨(), b.enter (.opened now), [.reopened window.failures]⟩
  else ⟨(), { b with phase := .halfOpen window inFlight }, []⟩

/-- Gives a permit back with the outcome of its call, or without one if the call was
given up.  A permit of an earlier generation changes nothing. -/
def settle (b : Breaker) (permit : Permit) (failed : Option Bool) (now : UInt64) : Step Unit :=
  if b.generation ≠ permit.generation then ⟨(), b, []⟩
  else
    match b.phase with
    | .opened _ => ⟨(), b, []⟩
    | .closed window =>
      match failed with
      | some failed => b.recordClosed window failed now
      | none => ⟨(), b, []⟩
    | .halfOpen window inFlight =>
      let inFlight := if permit.isProbe then inFlight - 1 else inFlight
      match failed with
      | some failed => b.recordHalfOpen window inFlight failed now
      | none => ⟨(), { b with phase := .halfOpen window inFlight }, []⟩

/-- Tells the phase; an open breaker whose delay has passed becomes half-open first. -/
def observe (b : Breaker) (now : UInt64) : Step PhaseKind :=
  let woken := b.wake now
  ⟨woken.breaker.phase.kind, woken.breaker, woken.events⟩

/-- Closes the breaker and forgets what it has seen. -/
def reset (b : Breaker) : Breaker := b.enter (freshClosed b.config)

@[simp] theorem config_enter (b : Breaker) (phase : Phase) : (b.enter phase).config = b.config :=
  rfl

/-- A permit of another generation changes nothing. -/
theorem settle_of_ne {b : Breaker} {permit : Permit} (failed : Option Bool) (now : UInt64)
    (h : b.generation ≠ permit.generation) : b.settle permit failed now = ⟨(), b, []⟩ := by
  simp [settle, h]

end Breaker

end FlowControl
