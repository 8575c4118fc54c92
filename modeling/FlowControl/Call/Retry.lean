import FlowControl.Backoff
import FlowControl.Call.Event
import FlowControl.Classifier
import FlowControl.Jitter
import FlowControl.Routine

/-!
# Trying again

A retry policy makes attempts until one succeeds, one fails in a way that must not
be tried again, or a number of attempts is used up.  Between two attempts it
sleeps for the delay of its schedule, spread by its jitter.
-/

namespace FlowControl

/-- A policy without any attempt. -/
inductive RetryFault where
  | noAttempts
  deriving DecidableEq, Repr

/-- The wording of a refused policy. -/
def RetryFault.message : RetryFault → String
  | .noAttempts => "max_attempts must be > 0 (got 0)"

/-- How many attempts are made, and how long to wait between them. -/
structure RetryPolicy where
  maxAttempts : Nat
  backoff : Backoff
  jitter : Jitter
  deriving Repr

namespace RetryPolicy

/-- Four attempts with the standard delays. -/
def standard : RetryPolicy := ⟨4, .standard, .standard⟩

instance : Inhabited RetryPolicy := ⟨standard⟩

/-- The policy itself, if it makes an attempt. -/
def checked (p : RetryPolicy) : Except RetryFault RetryPolicy :=
  if p.maxAttempts = 0 then .error .noAttempts else .ok p

end RetryPolicy

namespace Retry

/-- What a retry may ask: an attempt, a sleep, a random word, a report. -/
inductive Ask where
  | operate (attempt : Nat)
  | sleep (length : Duration)
  | roll
  | note (event : CallEvent)

/-- How each question is answered; an operation may end the sequence by an error. -/
abbrev Ask.Answer (α : Type) : Ask → Type
  | .operate _ => Except ResilienceError (Outcome α)
  | .sleep _ => Unit
  | .roll => UInt64
  | .note _ => Unit

/-- Questions of a retry whose attempts give values of a type; nothing is held. -/
def interface (α : Type) : Interface := ⟨Ask, Ask.Answer α, Empty⟩

/-- A program that makes attempts. -/
abbrev Program (α β : Type) := Routine (interface α) β

variable {α : Type}

/-- Makes an attempt. -/
def operate (attempt : Nat) : Program α (Except ResilienceError (Outcome α)) :=
  Routine.request (I := interface α) (.operate attempt)

/-- Sleeps. -/
def sleep (length : Duration) : Program α Unit :=
  Routine.request (I := interface α) (.sleep length)

/-- Rolls a random word. -/
def roll : Program α UInt64 := Routine.request (I := interface α) .roll

/-- Reports an event. -/
def note (event : CallEvent) : Program α Unit :=
  Routine.request (I := interface α) (.note event)

end Retry

namespace RetryPolicy

open Retry

variable {α : Type}

/-- Makes attempts from the given one on. -/
def executeFrom (p : RetryPolicy) (attempt : Nat) : Program α (Except ResilienceError α) := do
  match ← operate attempt with
  | .error error => pure (.error error)
  | .ok (.success value) => pure (.ok value)
  | .ok (.failure verdict failure) =>
    if !verdict.isRetryable then
      note (.notRetried attempt)
      pure (.error (.fatal failure))
    else if p.maxAttempts ≤ attempt then
      note (.exhausted attempt)
      pure (.error (.exhausted attempt failure))
    else
      let delay ← p.jitter.apply roll (p.backoff.delay attempt)
      note (.backingOff attempt delay)
      sleep delay
      executeFrom p (attempt + 1)
termination_by p.maxAttempts - attempt

/-- Makes attempts, the first of which is number one. -/
def execute (p : RetryPolicy) : Program α (Except ResilienceError α) := p.executeFrom 1

end RetryPolicy

end FlowControl
