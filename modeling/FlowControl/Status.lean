import FlowControl.Json.Leaf

/-!
# Status codes of remote calls

The seventeen codes, numbered from 0, with the name a settings text uses and the
title a message uses.
-/

namespace FlowControl

/-- The status a remote call ends with. -/
inductive StatusCode where
  | ok
  | cancelled
  | unknown
  | invalidArgument
  | deadlineExceeded
  | notFound
  | alreadyExists
  | permissionDenied
  | resourceExhausted
  | failedPrecondition
  | aborted
  | outOfRange
  | unimplemented
  | internal
  | unavailable
  | dataLoss
  | unauthenticated
  deriving DecidableEq, Repr

namespace StatusCode

/-- The codes in the order of their numbers. -/
def all : List StatusCode :=
  [.ok, .cancelled, .unknown, .invalidArgument, .deadlineExceeded, .notFound, .alreadyExists,
   .permissionDenied, .resourceExhausted, .failedPrecondition, .aborted, .outOfRange,
   .unimplemented, .internal, .unavailable, .dataLoss, .unauthenticated]

/-- The number of a code. -/
def number (c : StatusCode) : Nat := all.idxOf c

/-- The code of a number. -/
def ofNumber? (n : Int) : Option StatusCode :=
  if n < 0 then none else all[n.toNat]?

/-- The name of a code in settings. -/
def name : StatusCode → String
  | .ok => "OK"
  | .cancelled => "CANCELLED"
  | .unknown => "UNKNOWN"
  | .invalidArgument => "INVALID_ARGUMENT"
  | .deadlineExceeded => "DEADLINE_EXCEEDED"
  | .notFound => "NOT_FOUND"
  | .alreadyExists => "ALREADY_EXISTS"
  | .permissionDenied => "PERMISSION_DENIED"
  | .resourceExhausted => "RESOURCE_EXHAUSTED"
  | .failedPrecondition => "FAILED_PRECONDITION"
  | .aborted => "ABORTED"
  | .outOfRange => "OUT_OF_RANGE"
  | .unimplemented => "UNIMPLEMENTED"
  | .internal => "INTERNAL"
  | .unavailable => "UNAVAILABLE"
  | .dataLoss => "DATA_LOSS"
  | .unauthenticated => "UNAUTHENTICATED"

/-- The title of a code in messages. -/
def title : StatusCode → String
  | .ok => "Ok"
  | .cancelled => "Cancelled"
  | .unknown => "Unknown"
  | .invalidArgument => "InvalidArgument"
  | .deadlineExceeded => "DeadlineExceeded"
  | .notFound => "NotFound"
  | .alreadyExists => "AlreadyExists"
  | .permissionDenied => "PermissionDenied"
  | .resourceExhausted => "ResourceExhausted"
  | .failedPrecondition => "FailedPrecondition"
  | .aborted => "Aborted"
  | .outOfRange => "OutOfRange"
  | .unimplemented => "Unimplemented"
  | .internal => "Internal"
  | .unavailable => "Unavailable"
  | .dataLoss => "DataLoss"
  | .unauthenticated => "Unauthenticated"

/-- The codes by name. -/
def named : List (String × StatusCode) := all.map fun c => (c.name, c)

/-- The code of a name. -/
def ofName? (s : String) : Option StatusCode :=
  (named.find? (fun p => p.1 == s)).map Prod.snd

/-- A code as a settings text gives it. -/
def read : Json.Reader StatusCode := Json.variant named

theorem mem_all (c : StatusCode) : c ∈ all := by
  cases c <;> decide

theorem ofNumber?_number (c : StatusCode) : ofNumber? c.number = some c := by
  cases c <;> rfl

theorem ofName?_name (c : StatusCode) : ofName? c.name = some c := by
  cases c <;> decide

end StatusCode

end FlowControl
