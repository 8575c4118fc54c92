import FlowControl.Limiter.Event
import FlowControl.Routine

/-!
# What locks and buckets ask of their surroundings

Locks and buckets call the store, read a clock, pause and report events.  While a
program waits it may hold the guard of a lock; whoever drops the program there has
to see to the lock.
-/

namespace FlowControl

/-- A lock that is held: its key and the text that marks its owner. -/
structure Guard where
  key : String
  token : String
  deriving DecidableEq, Repr

namespace Limiter

/-- What a program over the store may ask. -/
inductive Ask where
  | store (call : StoreCall)
  | now
  | pause (length : Duration)
  | note (event : LimiterEvent)

/-- How each question is answered. -/
abbrev Ask.Answer : Ask → Type
  | .store call => Except StoreFault call.Value
  | .now => UInt64
  | .pause _ => Unit
  | .note _ => Unit

/-- Store calls, readings, pauses and reports; guards are held. -/
abbrev interface : Interface := ⟨Ask, Ask.Answer, Guard⟩

/-- A program over the store. -/
abbrev Program (α : Type) := Routine interface α

/-- Calls the store. -/
def store (call : StoreCall) : Program (Except StoreFault call.Value) :=
  Routine.request (I := interface) (.store call)

/-- Reads the clock. -/
def now : Program UInt64 := Routine.request (I := interface) .now

/-- Pauses. -/
def pause (length : Duration) : Program Unit := Routine.request (I := interface) (.pause length)

/-- Reports an event. -/
def note (event : LimiterEvent) : Program Unit := Routine.request (I := interface) (.note event)

end Limiter

end FlowControl
