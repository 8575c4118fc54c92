import FlowControl.Breaker
import FlowControl.Call.Retry
import FlowControl.Call.Timeout

/-!
# Guarded calls

A wrapper puts retries around a breaker around a limit on each attempt.  Every
attempt first asks the breaker for a permit, makes the call under the limit, and
settles the permit by the classifier's verdict.  A rejection by the breaker ends
the whole call.
-/

namespace FlowControl

/-- How calls of a service are guarded; the breaker is state of the surroundings. -/
structure Wrapper where
  name : String
  retry : RetryPolicy
  timeout : TimeoutPolicy
  classifier : Classifier

namespace Wrapper

/-- What a guarded call may ask; calls are made on a numbered instance of the service, and
an instance can be asked whether it is ready for one. -/
inductive Ask where
  | acquire
  | ready (target : Nat)
  | call (target : Nat) (limit : TimeoutPolicy)
  | settle (permit : Permit) (failed : Bool)
  | sleep (length : Duration)
  | roll
  | note (event : CallEvent)

/-- How each question is answered; a rejection tells how long the breaker stays open. -/
abbrev Ask.Answer (α : Type) : Ask → Type
  | .acquire => Except Duration Permit
  | .ready _ => Except CallError Unit
  | .call .. => Except Failure α
  | .settle .. => Unit
  | .sleep _ => Unit
  | .roll => UInt64
  | .note _ => Unit

/-- Questions to the breaker and the service; permits are held. -/
def interface (α : Type) : Interface := ⟨Ask, Ask.Answer α, Permit⟩

/-- A program that makes guarded calls. -/
abbrev Program (α β : Type) := Routine (interface α) β

variable {α : Type}

/-- Asks the breaker for a permit. -/
def acquire : Program α (Except Duration Permit) :=
  Routine.request (I := interface α) .acquire

/-- Asks an instance whether it is ready. -/
def ready (target : Nat) : Program α (Except CallError Unit) :=
  Routine.request (I := interface α) (.ready target)

/-- Makes the call under a limit, holding the permit. -/
def call (permit : Permit) (target : Nat) (limit : TimeoutPolicy) :
    Program α (Except Failure α) :=
  Routine.requestHolding (I := interface α) permit (.call target limit)

/-- Gives the permit back with the outcome. -/
def settle (permit : Permit) (failed : Bool) : Program α Unit :=
  Routine.requestHolding (I := interface α) permit (.settle permit failed)

/-- Reports an event. -/
def note (event : CallEvent) : Program α Unit :=
  Routine.request (I := interface α) (.note event)

/-- Makes one attempt. -/
def attempt (w : Wrapper) (target number : Nat) :
    Program α (Except ResilienceError (Outcome α)) := do
  match ← acquire with
  | .error remaining =>
    note (.rejected w.name number remaining)
    pure (.error (.circuitOpen remaining))
  | .ok permit =>
    match Outcome.ofResult w.classifier (← call permit target w.timeout) with
    | .success value =>
      settle permit false
      pure (.ok (.success value))
    | .failure verdict failure =>
      (note (.attemptFailed w.name number failure.isTimeout verdict.isRetryable)).holding permit
      settle permit verdict.tripsBreaker
      pure (.ok (.failure verdict failure))

/-- The program that answers a question of the retry policy. -/
def answer (w : Wrapper) (target : Nat) :
    (ask : Retry.Ask) → Program α (ask.Answer α)
  | .operate number => w.attempt target number
  | .sleep length => Routine.request (I := interface α) (.sleep length)
  | .roll => Routine.request (I := interface α) .roll
  | .note event => note event

/-- Makes a guarded call of an instance. -/
def invoke (w : Wrapper) (target : Nat) : Program α (Except ResilienceError α) :=
  (w.retry.execute : Retry.Program α _).interpret (J := interface α) Empty.elim
    (w.answer target)

end Wrapper

end FlowControl
