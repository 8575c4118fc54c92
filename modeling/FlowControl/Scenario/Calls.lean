import FlowControl.Call.Service
import FlowControl.Clock
import FlowControl.Scenario.Attempt
import FlowControl.Timeline

/-!
# Surroundings for guarded calls

Guarded calls run over one breaker and scripted services.  Calls made side by side
have a lane each, with a script and a record of when the service was called.
-/

namespace FlowControl.Scenario

/-- What stays the same during a scenario of calls. -/
structure CallRules where
  /-- Does the breaker read a hand clock, and not virtual time? -/
  manual : Bool
  /-- What sleeping between two attempts does. -/
  sleeping : Sleeping

/-- A lane: what its service does, and the instants at which it was called, last first. -/
structure Lane (α : Type) where
  script : Script α
  calls : List Nat

/-- What changes during a scenario of calls. -/
structure CallWorld (α : Type) where
  clock : HandClock
  breaker : Breaker
  breakerName : String
  lanes : List (Lane α)
  unready : Option String
  sleeps : List Duration
  notes : List Note
  ended : List (Nat × Except ResilienceError α)

/-- Questions of guarded calls, each from a lane. -/
def laneInterface (α : Type) : Interface :=
  ⟨Nat × Wrapper.Ask, fun r => r.2.Answer α, Permit⟩

/-- A program that makes guarded calls in some lane. -/
abbrev LaneProgram (α β : Type) := Routine (laneInterface α) β

/-- Puts a program on a lane. -/
def onLane {α β : Type} (lane : Nat) (p : Wrapper.Program α β) : LaneProgram α β :=
  Routine.interpret (I := Wrapper.interface α) (J := laneInterface α) id
    (fun ask => Routine.request (I := laneInterface α) (lane, ask)) p

namespace CallWorld

variable {α : Type}

/-- The world at the start. -/
def initial (clock : HandClock) (breaker : Breaker) (breakerName : String) : CallWorld α where
  clock
  breaker
  breakerName
  lanes := []
  unready := none
  sleeps := []
  notes := []
  ended := []

/-- The reading of the breaker's clock. -/
def reading (w : CallWorld α) (rules : CallRules) (now : Nat) : UInt64 :=
  if rules.manual then w.clock.now else Word.clamp now

/-- Takes over the breaker after an operation, and its reports. -/
def after {β : Type} (w : CallWorld α) (step : Breaker.Step β) : CallWorld α :=
  { w with
    breaker := step.breaker
    notes := (step.events.map (BreakerEvent.note w.breakerName)).reverse ++ w.notes }

/-- The breaker asks nobody: an operation on it is answered at once. -/
def onBreaker {β : Type} (w : CallWorld α) (step : Breaker.Step β) : Timed (CallWorld α) β :=
  .immediate step.answer (w.after step)

/-- The fault of a service without a script. -/
def unscriptedCall : Failure := .call (.plain "no service")

/-- Makes the next call of a lane under a limit. -/
def startCall (w : CallWorld α) (lane : Nat) (limit : TimeoutPolicy) (now : Nat) :
    Timed (CallWorld α) (Except Failure α) :=
  match w.lanes[lane]? with
  | none => .immediate (.error unscriptedCall) w
  | some l =>
    let attempt := l.script.attempt l.calls.length
    let latency := Duration.ofMillis attempt.latency
    let w := { w with lanes := w.lanes.set lane { l with calls := now :: l.calls } }
    ⟨limit.ticks latency, false, w, fun _ w => (limit.bound latency attempt.result, w)⟩

/-- Deals with a question from a lane. -/
def start (rules : CallRules) (lane : Nat) (ask : Wrapper.Ask) (now : Nat) (w : CallWorld α) :
    Timed (CallWorld α) (ask.Answer α) :=
  match ask with
  | .acquire => w.onBreaker (w.breaker.tryAcquire (w.reading rules now))
  | .ready _ =>
    .immediate (match w.unready with
      | some reason => .error (.plain reason)
      | none => .ok ()) w
  | .call _ limit => w.startCall lane limit now
  | .settle permit failed =>
    w.onBreaker (w.breaker.settle permit (some failed) (w.reading rules now))
  | .sleep length =>
    let w := { w with
      clock := rules.sleeping.moved length w.clock
      sleeps := rules.sleeping.record length w.sleeps }
    ⟨rules.sleeping.ticks length, rules.sleeping.isWait, w, fun _ w => ((), w)⟩
  | .roll => .immediate 0 w
  | .note event => .immediate () { w with notes := event.note :: w.notes }

end CallWorld

/-- The surroundings of guarded calls. -/
def CallRules.surroundings (rules : CallRules) (α : Type) :
    Surroundings (laneInterface α) (CallWorld α) where
  start r now w := CallWorld.start rules r.1 r.2 now w
  giveUp permit now w := (w.after (w.breaker.settle permit none (w.reading rules now)), [])
  ring _ w := (w, none)
  keepsPlaces := true

/-! ## Retries alone -/

/-- What the attempts of a retry give, one after another; the last is repeated. -/
structure Outcomes (α : Type) where
  first : Except ResilienceError (Outcome α)
  more : List (Except ResilienceError (Outcome α))

/-- The outcome of an attempt; attempts are counted from zero. -/
def Outcomes.outcome {α : Type} (o : Outcomes α) : Nat → Except ResilienceError (Outcome α)
  | 0 => o.first
  | n + 1 => o.more[n]?.getD (o.more.getLast?.getD o.first)

/-- What a retry did so far, last first: the numbers of its attempts, its sleeps, its notes. -/
structure RetryRecord where
  attempts : List Nat
  sleeps : List Duration
  notes : List Note

/-- Answers a question of a retry at once, and records it. -/
def Outcomes.answer {α : Type} (o : Outcomes α) (ask : Retry.Ask) (r : RetryRecord) :
    ask.Answer α × RetryRecord :=
  match ask with
  | .operate attempt =>
    (o.outcome r.attempts.length, { r with attempts := attempt :: r.attempts })
  | .sleep length => ((), { r with sleeps := length :: r.sleeps })
  | .roll => (0, r)
  | .note event => ((), { r with notes := event.note :: r.notes })

/-- Runs a retry policy over given outcomes: its result, and what it did in order. -/
def runRetry {α : Type} (policy : RetryPolicy) (o : Outcomes α) :
    Except ResilienceError α × RetryRecord :=
  let p : Retry.Program α (Except ResilienceError α) := policy.execute
  let (result, r) := p.run o.answer ⟨[], [], []⟩
  (result, ⟨r.attempts.reverse, r.sleeps.reverse, r.notes.reverse⟩)

end FlowControl.Scenario
