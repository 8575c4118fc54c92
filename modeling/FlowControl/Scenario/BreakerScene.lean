import FlowControl.Breaker
import FlowControl.Clock

/-!
# Scenes with a breaker

A scene is a breaker on a hand clock, with the permits that are out by name.  Its
name can be changed only while nothing else shares the breaker: no copy and no
permit.
-/

namespace FlowControl.Scenario

/-- A breaker on a hand clock, with its name, its copies and the permits that are out. -/
structure BreakerScene where
  clock : HandClock
  breaker : Breaker
  name : String
  copies : Nat
  permits : List (String × Permit)
  notes : List Note

namespace BreakerScene

/-- A scene at its start. -/
def initial (breaker : Breaker) (clock : HandClock) : BreakerScene :=
  ⟨clock, breaker, "default", 0, [], []⟩

/-- Takes over the breaker after an operation, and its reports. -/
def after {β : Type} (s : BreakerScene) (step : Breaker.Step β) : BreakerScene :=
  { s with
    breaker := step.breaker
    notes := (step.events.map (BreakerEvent.note s.name)).reverse ++ s.notes }

/-- The notes since the last report, in order. -/
def report (s : BreakerScene) : List Note × BreakerScene :=
  (s.notes.reverse, { s with notes := [] })

/-- Gives a permit back, with an outcome if there is one. -/
def settlePermit (s : BreakerScene) (permit : Permit) (failed : Option Bool) : BreakerScene :=
  s.after (s.breaker.settle permit failed s.clock.now)

/-- Asks for a permit. -/
def tryAcquire (s : BreakerScene) : Except Duration Permit × BreakerScene :=
  let step := s.breaker.tryAcquire s.clock.now
  (step.answer, s.after step)

/-- Takes a permit and keeps it; an older permit of this name is dropped. -/
def acquire (s : BreakerScene) (name : String) : Except Duration Permit × BreakerScene :=
  match s.tryAcquire with
  | (.error remaining, s) => (.error remaining, s)
  | (.ok permit, s) =>
    let older := s.permits.lookup name
    let s := { s with permits := (name, permit) :: s.permits.filter fun p => p.1 != name }
    (.ok permit, (older.map fun p => s.settlePermit p none).getD s)

/-- Gives the permit of a name back, with an outcome if there is one. -/
def settle (s : BreakerScene) (name : String) (failed : Option Bool) :
    Option Unit × BreakerScene :=
  match s.permits.lookup name with
  | none => (none, s)
  | some permit =>
    let s := { s with permits := s.permits.filter fun p => p.1 != name }
    (some (), s.settlePermit permit failed)

/-- How one call in a row went: admitted, admitted as a probe, or rejected. -/
inductive Admission where
  | call
  | probe
  | rejected
  deriving DecidableEq, Repr

/-- Makes calls one after another with given outcomes; a call without one is given up. -/
def callAll : BreakerScene → List (Option Bool) → List Admission × BreakerScene
  | s, [] => ([], s)
  | s, outcome :: outcomes =>
    let (admission, s) := match s.tryAcquire with
      | (.error _, s) => (Admission.rejected, s)
      | (.ok permit, s) =>
        (if permit.isProbe then Admission.probe else .call, s.settlePermit permit outcome)
    let (admissions, s) := callAll s outcomes
    (admission :: admissions, s)

/-- Asks the breaker for its phase. -/
def observe (s : BreakerScene) : PhaseKind × BreakerScene :=
  let step := s.breaker.observe s.clock.now
  (step.answer, s.after step)

/-- Resets the breaker. -/
def reset (s : BreakerScene) : BreakerScene := { s with breaker := s.breaker.reset }

/-- Keeps a copy of the breaker alive. -/
def copy (s : BreakerScene) : BreakerScene := { s with copies := s.copies + 1 }

/-- Names the breaker, unless something shares it. -/
def rename (s : BreakerScene) (name : String) : BreakerScene :=
  if s.copies = 0 ∧ s.permits = [] then { s with name } else s

/-- Moves the clock forward. -/
def advanceClock (s : BreakerScene) (millis : UInt64) : BreakerScene :=
  { s with clock := s.clock.advance millis }

/-- Sets the clock. -/
def setClock (s : BreakerScene) (millis : UInt64) : BreakerScene :=
  { s with clock := s.clock.set millis }

end BreakerScene

end FlowControl.Scenario
