/-!
# The last outcomes

A window keeps the last outcomes up to its capacity, oldest first, together with
the number of failures among them.
-/

namespace FlowControl

/-- The last outcomes, oldest first; `true` stands for a failure. -/
structure OutcomeWindow where
  capacity : Nat
  outcomes : List Bool
  failures : Nat
  deriving DecidableEq, Repr

namespace OutcomeWindow

/-- A window without outcomes. -/
def empty (capacity : Nat) : OutcomeWindow := ⟨capacity, [], 0⟩

/-- The number of outcomes in the window. -/
def size (w : OutcomeWindow) : Nat := w.outcomes.length

/-- The number of successes in the window. -/
def successes (w : OutcomeWindow) : Nat := w.size - w.failures

/-- Forgets the oldest outcome. -/
def forgetOldest (w : OutcomeWindow) : OutcomeWindow :=
  match w.outcomes with
  | [] => w
  | failed :: later =>
    { w with outcomes := later, failures := if failed then w.failures - 1 else w.failures }

/-- Appends an outcome. -/
def append (w : OutcomeWindow) (failed : Bool) : OutcomeWindow :=
  { w with
    outcomes := w.outcomes ++ [failed]
    failures := if failed then w.failures + 1 else w.failures }

/-- Adds an outcome, in place of the oldest one if the window is full. -/
def push (w : OutcomeWindow) (failed : Bool) : OutcomeWindow :=
  (if w.size = w.capacity then w.forgetOldest else w).append failed

/-- The number of failures is the number of failed outcomes, and no more than fit are kept. -/
structure Sound (w : OutcomeWindow) : Prop where
  failures_eq : w.failures = w.outcomes.count true
  size_le : w.size ≤ w.capacity

@[simp] theorem capacity_push (w : OutcomeWindow) (failed : Bool) :
    (w.push failed).capacity = w.capacity := by
  unfold push forgetOldest append
  split
  · split <;> rfl
  · rfl

theorem sound_empty (capacity : Nat) : (empty capacity).Sound :=
  ⟨rfl, Nat.zero_le _⟩

theorem outcomes_push (w : OutcomeWindow) (failed : Bool) :
    (w.push failed).outcomes =
      (if w.size = w.capacity then w.outcomes.drop 1 else w.outcomes) ++ [failed] := by
  unfold push forgetOldest append
  split
  · split <;> simp_all
  · rfl

end OutcomeWindow

end FlowControl
