import FlowControl.Call.Wrapper

/-!
# A service behind a wrapper

A guarded service keeps an instance of the service that is asked whether it is
ready.  A request takes this instance, a fresh copy takes its place, and all
attempts of the request are made on the instance that was taken.
-/

namespace FlowControl

/-- A service behind a wrapper: the instance at hand, and how many were made. -/
structure GuardedService where
  wrapper : Wrapper
  current : Nat
  made : Nat

namespace GuardedService

variable {α : Type}

/-- A guarded service with its first instance. -/
def ofWrapper (wrapper : Wrapper) : GuardedService := ⟨wrapper, 0, 1⟩

/-- Asks whether the instance at hand is ready; if it fails, so does the service. -/
def ready (s : GuardedService) : Wrapper.Program α (Except ResilienceError Unit) := do
  match ← Wrapper.ready s.current with
  | .ok () => pure (.ok ())
  | .error error => pure (.error (.fatal (.call error)))

/-- The guarded call of a request, and the service for the next one. -/
def call (s : GuardedService) : Wrapper.Program α (Except ResilienceError α) × GuardedService :=
  (s.wrapper.invoke s.current, { s with current := s.made, made := s.made + 1 })

/-- Handles one request: waits until the service is ready, then makes the guarded call. -/
def oneshot (s : GuardedService) : Wrapper.Program α (Except ResilienceError α) := do
  match ← s.ready with
  | .error error => pure (.error error)
  | .ok () => s.call.1

end GuardedService

end FlowControl
