import FlowControl.Failure

/-!
# Scripted services

A scripted service answers its calls by a list of attempts, each with a latency
and a result.  Once the list is used up its last attempt is repeated.
-/

namespace FlowControl.Scenario

/-- How a call goes: after how many milliseconds it ends, and how. -/
structure Attempt (α : Type) where
  latency : Nat
  result : Except CallError α

/-- Attempts one after another, at least one. -/
structure Script (α : Type) where
  first : Attempt α
  more : List (Attempt α)

/-- The attempt for a call; calls are counted from zero. -/
def Script.attempt {α : Type} (s : Script α) : Nat → Attempt α
  | 0 => s.first
  | n + 1 => s.more[n]?.getD (s.more.getLast?.getD s.first)

end FlowControl.Scenario
