import FlowControl.Failure

/-!
# A limit on each attempt

An attempt that takes longer than its limit is given up.  Both the attempt and the
limit end on whole milliseconds; if they end on the same one the attempt counts.
-/

namespace FlowControl

/-- A limit that is empty. -/
inductive TimeoutFault where
  | noTime
  deriving DecidableEq, Repr

/-- The wording of a refused limit. -/
def TimeoutFault.message : TimeoutFault → String
  | .noTime => "timeout duration must be non-zero"

/-- How long an attempt may take. -/
structure TimeoutPolicy where
  limit : Duration
  deriving DecidableEq, Repr

namespace TimeoutPolicy

/-- Ten seconds. -/
def standard : TimeoutPolicy := ⟨.ofSecs 10⟩

instance : Inhabited TimeoutPolicy := ⟨standard⟩

/-- A limit, if it is not empty. -/
def ofLimit (limit : Duration) : Except TimeoutFault TimeoutPolicy :=
  if limit.isZero then .error .noTime else .ok ⟨limit⟩

/-- Does an attempt of this length end within the limit? -/
def allows (p : TimeoutPolicy) (latency : Duration) : Bool :=
  decide (latency.ticks ≤ p.limit.ticks)

/-- After how many milliseconds an attempt of this length is over. -/
def ticks (p : TimeoutPolicy) (latency : Duration) : Nat := min latency.ticks p.limit.ticks

/-- What becomes of an attempt of this length and result. -/
def bound {α : Type} (p : TimeoutPolicy) (latency : Duration) (result : Except CallError α) :
    Except Failure α :=
  if p.allows latency then result.mapError .call
  else .error (.timedOut (.ofMillis p.limit.ticks) p.limit)

end TimeoutPolicy

end FlowControl
