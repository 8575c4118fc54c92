import FlowControl.Failure
import FlowControl.Limiter.Registered

/-!
# A gate in front of a service

A gate limits requests by caller and route before they reach a service.  Requests
without a caller pass.  What happens when the limiter itself fails is a matter of
policy.
-/

namespace FlowControl

/-- What to do with a request when the lock or the store fails. -/
inductive FailurePolicy where
  | letPass
  | reject
  deriving DecidableEq, Repr

/-- Why a request got no answer: it came too soon, the limiter failed, or the service did. -/
inductive Rejection where
  | limited (retryAfter : Duration)
  | backend (error : LimitError)
  | inner (error : CallError)
  deriving DecidableEq, Repr

namespace Rejection

/-- The wording of a rejection. -/
def message : Rejection → String
  | .limited retryAfter => LimitError.exceededMessage retryAfter
  | .backend error => s!"rate limiter unavailable: {error.message}"
  | .inner error => error.message

/-- When to try again, if the request came too soon. -/
def retryAfter? : Rejection → Option Duration
  | .limited retryAfter => some retryAfter
  | _ => none

/-- The retry header, if the request came too soon. -/
def header? (r : Rejection) : Option String := r.retryAfter?.map Duration.headerText

/-- The wording of what failed, if something did. -/
def cause? : Rejection → Option String
  | .limited _ => none
  | .backend error => some error.message
  | .inner error => some error.message

end Rejection

/-- Who sends a request on which route; an empty caller is unknown. -/
structure Identity where
  caller : String
  method : String
  path : String
  deriving DecidableEq, Repr

/-- A gate: the service's name, how its limiters are sized, and its policy. -/
structure Gate where
  service : String
  config : LimiterConfig
  policy : FailurePolicy
  deriving DecidableEq, Repr

namespace Gate

/-- What a gate may ask: its registry, and the service behind it, which is asked whether it
is ready before it serves. -/
inductive Ask where
  | registry (ask : Registry.Ask)
  | limiter (key : LimiterKey) (config : LimiterConfig)
  | ready
  | serve

/-- How each question is answered. -/
abbrev Ask.Answer (α : Type) : Ask → Type
  | .registry ask => ask.Answer
  | .limiter .. => Handle
  | .ready => Except CallError Unit
  | .serve => Except CallError α

/-- Questions to the registry and to a service that answers with values of a type. -/
def interface (α : Type) : Interface := ⟨Ask, Ask.Answer α, Registry.Held⟩

/-- A program of a gate before a service. -/
abbrev Program (α β : Type) := Routine (interface α) β

variable {α : Type}

/-- A program on registered limiters, as one of a gate. -/
def ofRegistry {β : Type} (p : Registry.Program β) : Program α β :=
  Routine.interpret (I := Registry.interface) (J := interface α) id
    (fun ask => Routine.request (I := interface α) (.registry ask)) p

/-- The limiter for a key. -/
def limiterFor (key : LimiterKey) (config : LimiterConfig) : Program α Handle :=
  Routine.request (I := interface α) (.limiter key config)

/-- Reports an event. -/
def note (event : LimiterEvent) : Program α Unit :=
  Routine.request (I := interface α) (.registry (.limiter (.note event)))

/-- Passes the request on to the service. -/
def pass : Program α (Except Rejection α) := do
  match ← Routine.request (I := interface α) .serve with
  | .ok value => pure (.ok value)
  | .error error => pure (.error (.inner error))

/-- Asks whether the service is ready. -/
def ready : Program α (Except Rejection Unit) := do
  match ← Routine.request (I := interface α) .ready with
  | .ok () => pure (.ok ())
  | .error error => pure (.error (.inner error))

/-- The key under which a request is limited. -/
def keyOf (gate : Gate) (who : Identity) : LimiterKey :=
  ⟨gate.service, who.caller, who.method, who.path⟩

/-- Handles a request: one token is taken for it, and it passes if there was one. -/
def handle (gate : Gate) (who : Identity) (token : String) : Program α (Except Rejection α) :=
  if who.caller = "" then pass
  else do
    let key := gate.keyOf who
    let limiter ← limiterFor key gate.config
    match ← ofRegistry (limiter.take token 1) with
    | .ok () => pass
    | .error (.exceeded retryAfter) => pure (.error (.limited retryAfter))
    | .error error =>
      if error.isBackendFailure && gate.policy == .letPass then
        note (.failingOpen key error)
        pass
      else
        note (.rejecting key error)
        pure (.error (.backend error))

/-- Waits until the service is ready, then handles a request. -/
def oneshot (gate : Gate) (who : Identity) (token : String) : Program α (Except Rejection α) := do
  match ← ready with
  | .error rejection => pure (.error rejection)
  | .ok () => gate.handle who token

end Gate

end FlowControl
