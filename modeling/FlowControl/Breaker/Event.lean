import FlowControl.Event

/-!
# What a breaker reports
-/

namespace FlowControl

/-- What a breaker reports about itself. -/
inductive BreakerEvent where
  | opened (failures size : Nat)
  | halfOpened
  | probeAdmitted (inFlight : Nat)
  | closed
  | reopened (failures : Nat)
  deriving DecidableEq, Repr

namespace BreakerEvent

/-- A note of a breaker. -/
def noteOf (name : String) (level : Level) (message : String)
    (values : List (String × String)) : Note :=
  ⟨level, "circuit_breaker", message, ("breaker", name) :: values⟩

/-- The note on an event of a breaker of some name. -/
def note (name : String) : BreakerEvent → Note
  | .opened failures size =>
    noteOf name .error "Circuit breaker → open"
      [("failures", toString failures), ("window", toString size)]
  | .halfOpened => noteOf name .info "Circuit breaker → half-open" []
  | .probeAdmitted inFlight =>
    noteOf name .debug "half-open probe admitted" [("in_flight", toString inFlight)]
  | .closed => noteOf name .info "Circuit breaker → closed" []
  | .reopened failures =>
    noteOf name .warning "Circuit breaker: probes failed → open" [("failures", toString failures)]

end BreakerEvent

end FlowControl
