import FlowControl.Duration.Text
import FlowControl.Status

/-!
# How calls fail

An attempt fails by a timeout or by the error the call came back with.  A guarded
call fails because its circuit was open, because its attempts ran out, or by a
failure that must not be tried again.
-/

namespace FlowControl

/-- The error a call came back with; only a status carries a code. -/
inductive CallError where
  | status (code : StatusCode) (message : String)
  | plain (message : String)
  deriving DecidableEq, Repr

namespace CallError

/-- The status code, if the error carries one. -/
def code? : CallError → Option StatusCode
  | .status code _ => some code
  | .plain _ => none

/-- The wording of the error. -/
def message : CallError → String
  | .status code message => s!"{code.title}: {message}"
  | .plain message => message

end CallError

/-- Why one attempt failed. -/
inductive Failure where
  | timedOut (elapsed limit : Duration)
  | call (error : CallError)
  deriving DecidableEq, Repr

namespace Failure

/-- The wording of the failure. -/
def message : Failure → String
  | .timedOut elapsed limit => s!"attempt timed out after {elapsed.text} (limit: {limit.text})"
  | .call error => error.message

/-- Did the attempt run out of time? -/
def isTimeout : Failure → Bool
  | .timedOut .. => true
  | .call _ => false

/-- The error of the call, if it came back with one. -/
def call? : Failure → Option CallError
  | .timedOut .. => none
  | .call error => some error

end Failure

/-- Why a guarded call failed. -/
inductive ResilienceError where
  | circuitOpen (remaining : Duration)
  | exhausted (attempts : Nat) (last : Failure)
  | fatal (last : Failure)
  deriving DecidableEq, Repr

namespace ResilienceError

/-- The wording of a rejection by an open circuit. -/
def circuitOpenMessage (remaining : Duration) : String :=
  s!"circuit breaker open (next probe in {remaining.text})"

/-- The wording of the error. -/
def message : ResilienceError → String
  | .circuitOpen remaining => circuitOpenMessage remaining
  | .exhausted attempts last =>
    s!"retry exhausted after {attempts} attempts; last error: {last.message}"
  | .fatal last => last.message

/-- Was the call rejected by an open circuit? -/
def isCircuitOpen : ResilienceError → Bool
  | .circuitOpen _ => true
  | _ => false

/-- Did the attempts run out? -/
def isExhausted : ResilienceError → Bool
  | .exhausted .. => true
  | _ => false

/-- Was the failure one that must not be tried again? -/
def isFatal : ResilienceError → Bool
  | .fatal _ => true
  | _ => false

/-- The failure of the last attempt, if one was made. -/
def last? : ResilienceError → Option Failure
  | .circuitOpen _ => none
  | .exhausted _ last | .fatal last => some last

/-- Did the last attempt run out of time? -/
def isTimeout (e : ResilienceError) : Bool :=
  e.last?.any Failure.isTimeout

/-- The number of attempts, where the error tells it. -/
def attempts? : ResilienceError → Option Nat
  | .circuitOpen _ => some 0
  | .exhausted attempts _ => some attempts
  | .fatal _ => none

/-- The error of the last call, if it came back with one. -/
def lastCall? (e : ResilienceError) : Option CallError :=
  e.last?.bind Failure.call?

/-- How long the circuit stays open, if that was the reason. -/
def remaining? : ResilienceError → Option Duration
  | .circuitOpen remaining => some remaining
  | _ => none

/-- The wordings of the causes, outermost first. -/
def causes (e : ResilienceError) : List String :=
  e.last?.toList.map Failure.message ++ e.lastCall?.toList.map CallError.message

end ResilienceError

end FlowControl
