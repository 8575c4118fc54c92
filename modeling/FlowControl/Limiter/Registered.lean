import FlowControl.Limiter.Registry

/-!
# Operations on registered limiters

An operation marks its bucket busy, works on it and marks it free again.  If the
operation is dropped on the way, the bucket is marked free after the lock's guard
has been dropped.
-/

namespace FlowControl.Registry

/-- What an operation on a registered limiter may ask. -/
inductive Ask where
  | limiter (ask : Limiter.Ask)
  | enter (handle : Handle)
  | touch (handle : Handle)
  | leave (handle : Handle)

/-- How each question is answered. -/
abbrev Ask.Answer : Ask → Type
  | .limiter ask => ask.Answer
  | .enter _ => Unit
  | .touch _ => Unit
  | .leave _ => Unit

/-- What such an operation holds: the guard of a lock, or the mark of a busy bucket. -/
inductive Held where
  | guard (guard : Guard)
  | busy (handle : Handle)
  deriving DecidableEq, Repr

/-- Questions of limiters, and the marks in the registry. -/
def interface : Interface := ⟨Ask, Ask.Answer, Held⟩

/-- A program on registered limiters. -/
abbrev Program (α : Type) := Routine interface α

/-- A program over the store, as one on registered limiters. -/
def ofLimiter {α : Type} (p : Limiter.Program α) : Program α :=
  p.interpret (J := interface) Held.guard fun ask =>
    Routine.request (I := interface) (.limiter ask)

/-- Marks a bucket busy. -/
def markBusy (h : Handle) : Program Unit := Routine.request (I := interface) (.enter h)

/-- Notes an access to a bucket. -/
def noteAccess (h : Handle) : Program Unit := Routine.request (I := interface) (.touch h)

/-- Marks a busy bucket free. -/
def markFree (h : Handle) : Program Unit :=
  Routine.requestHolding (I := interface) (.busy h) (.leave h)

end FlowControl.Registry

namespace FlowControl.Handle

open Registry

/-- Takes tokens; the access counts from the start and again at the end. -/
def take (h : Handle) (token : String) (n : UInt64) :
    Registry.Program (Except LimitError Unit) := do
  markBusy h
  let result ← (ofLimiter (h.bucket.take token n)).holding (.busy h)
  (noteAccess h).holding (.busy h)
  markFree h
  pure result

/-- Fills the bucket and removes its lock. -/
def reset (h : Handle) : Registry.Program (Except LimitError Unit) := do
  markBusy h
  let result ← (ofLimiter h.bucket.reset).holding (.busy h)
  markFree h
  pure result

/-- The stored state as it is; this does not count as an access. -/
def peek (h : Handle) : Registry.Program (Except LimitError (Option TokenState)) :=
  ofLimiter h.bucket.peek

end FlowControl.Handle
