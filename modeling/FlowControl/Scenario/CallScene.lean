import FlowControl.Scenario.Calls

/-!
# Scenes with guarded calls

A scene is one wrapper with its breaker on a timeline, called directly or as a
service.  Permits may also be taken from the breaker directly; they are kept by
name.
-/

namespace FlowControl.Scenario

/-- A scene of guarded calls. -/
structure CallScene (α : Type) where
  rules : CallRules
  wrapper : Wrapper
  /-- Are calls made through a guarded service? -/
  layered : Bool
  timeline : Timeline (laneInterface α) (CallWorld α)
  permits : List (String × Permit)

namespace CallScene

variable {α β : Type}

/-- A scene at its start; the breaker has the wrapper's name. -/
def initial (rules : CallRules) (wrapper : Wrapper) (breaker : Breaker) (layered : Bool)
    (clock : HandClock) : CallScene α where
  rules
  wrapper
  layered
  timeline := ⟨0, .initial clock breaker wrapper.name, []⟩
  permits := []

/-- The surroundings of the scene. -/
def surroundings (s : CallScene α) : Surroundings (laneInterface α) (CallWorld α) :=
  s.rules.surroundings α

/-- The state of the world. -/
def world (s : CallScene α) : CallWorld α := s.timeline.world

/-- The present instant. -/
def now (s : CallScene α) : Nat := s.timeline.now

/-- The breaker. -/
def breaker (s : CallScene α) : Breaker := s.world.breaker

/-- The names of wrapper and breaker. -/
def names (s : CallScene α) : String × String := (s.wrapper.name, s.world.breakerName)

/-- The reading of the breaker's clock. -/
def reading (s : CallScene α) : UInt64 := s.world.reading s.rules s.now

/-- Changes the world. -/
def onWorld (s : CallScene α) (f : CallWorld α → CallWorld α) : CallScene α :=
  { s with timeline := { s.timeline with world := f s.timeline.world } }

/-- The notes and sleeps since the last report, in order; both start afresh. -/
def report (s : CallScene α) : List Note × List Duration × CallScene α :=
  (s.world.notes.reverse, s.world.sleeps.reverse,
    s.onWorld fun w => { w with notes := [], sleeps := [] })

/-- Sets up a lane for each script. -/
def withLanes (s : CallScene α) (scripts : List (Script α)) (unready : Option String) :
    CallScene α :=
  s.onWorld fun w => { w with
    lanes := scripts.map fun script => ⟨script, []⟩
    unready
    ended := [] }

/-- The instants of the calls in each lane, in order. -/
def calls (s : CallScene α) : List (List Nat) := s.world.lanes.map fun l => l.calls.reverse

/-- The guarded call in a lane. -/
def program (s : CallScene α) (lane : Nat) : LaneProgram α (Except ResilienceError α) :=
  onLane lane
    (if s.layered then (GuardedService.ofWrapper s.wrapper).oneshot else s.wrapper.invoke 0)

/-- Makes a guarded call. -/
def invoke (s : CallScene α) (script : Script α) (unready : Option String) :
    Except ResilienceError α × CallScene α :=
  let s := s.withLanes [script] unready
  let (result, timeline) := s.timeline.run s.surroundings (s.program 0)
  (result, { s with timeline })

/-- Makes a guarded call and drops it after some milliseconds. -/
def invokeFor (s : CallScene α) (millis : Nat) (script : Script α) :
    Option (Except ResilienceError α) × CallScene α :=
  let s := s.withLanes [script] none
  let (result, timeline) := s.timeline.runUntil s.surroundings (s.now + millis) (s.program 0)
  (result, { s with timeline })

/-- What a guarded call in a lane leaves behind. -/
def legacy (lane : Nat) (result : Except ResilienceError α) : Timeline.Legacy (CallWorld α) :=
  fun _ w => { w with ended := (lane, result) :: w.ended }

/-- Makes guarded calls side by side, one in each lane. -/
def invokeTogether (s : CallScene α) (scripts : List (Script α)) :
    List (Option (Except ResilienceError α)) × CallScene α :=
  let s := s.withLanes scripts none
  let lanes := List.range scripts.length
  let programs := lanes.map fun lane =>
    s.program lane >>= fun result => pure (legacy lane result)
  let s := { s with timeline := s.timeline.runTogether s.surroundings programs }
  (lanes.map fun lane => s.world.ended.lookup lane, s)

/-- Lets virtual time pass. -/
def sleep (s : CallScene α) (millis : Nat) : CallScene α :=
  { s with timeline := s.timeline.sleep s.surroundings millis }

/-- Moves the hand clock forward. -/
def advanceClock (s : CallScene α) (millis : UInt64) : CallScene α :=
  s.onWorld fun w => { w with clock := w.clock.advance millis }

/-- Gives a permit back, with an outcome if there is one. -/
def settlePermit (s : CallScene α) (permit : Permit) (failed : Option Bool) : CallScene α :=
  s.onWorld fun w => w.after (w.breaker.settle permit failed s.reading)

/-- Takes a permit and keeps it; an older permit of this name is dropped. -/
def acquire (s : CallScene α) (name : String) : Except Duration Permit × CallScene α :=
  let step := s.breaker.tryAcquire s.reading
  let s := s.onWorld (·.after step)
  match step.answer with
  | .error remaining => (.error remaining, s)
  | .ok permit =>
    let older := s.permits.lookup name
    let s := { s with permits := (name, permit) :: s.permits.filter fun p => p.1 != name }
    (.ok permit, (older.map fun p => s.settlePermit p none).getD s)

/-- Settles a permit. -/
def settle (s : CallScene α) (name : String) (failed : Bool) : Option Unit × CallScene α :=
  match s.permits.lookup name with
  | none => (none, s)
  | some permit =>
    let s := { s with permits := s.permits.filter fun p => p.1 != name }
    (some (), s.settlePermit permit (some failed))

/-- Asks the breaker for its phase. -/
def observe (s : CallScene α) : PhaseKind × CallScene α :=
  let step := s.breaker.observe s.reading
  (step.answer, s.onWorld (·.after step))

/-- Resets the breaker. -/
def reset (s : CallScene α) : CallScene α :=
  s.onWorld fun w => { w with breaker := w.breaker.reset }

end CallScene

end FlowControl.Scenario
