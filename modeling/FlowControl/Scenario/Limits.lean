import FlowControl.Clock
import FlowControl.Limiter.Gate
import FlowControl.Scenario.Attempt
import FlowControl.Store.Memory
import FlowControl.Timeline

/-!
# Surroundings for limiters

Limiters run over a store in memory whose calls can be delayed and made to fail.
Readings come from virtual time or from a hand clock, and the buckets' own clock
may stand still.  The registry counts its accesses in virtual time.
-/

namespace FlowControl.Scenario

/-- What stays the same during a scenario of limiters. -/
structure LimitRules where
  /-- Do store and buckets read a hand clock, and not virtual time? -/
  manual : Bool
  /-- The reading at which the buckets' clock stands still, if it does. -/
  bucketClock : Option UInt64
  /-- What pausing before another try for a lock does. -/
  sleeping : Sleeping
  /-- Can dropped locks be released in the background? -/
  hasBackground : Bool
  /-- The time between two sweeps of the registry. -/
  sweepInterval : Duration

/-- What changes during a scenario of limiters before a service. -/
structure LimitWorld (α : Type) where
  clock : HandClock
  memory : Memory
  failures : StoreMethod → Nat
  delays : StoreMethod → Nat
  registry : Registry
  service : Option (Attempt α)
  unready : Option String
  served : Nat
  pauses : List Duration
  notes : List Note
  tokens : Nat
  ended : List (Nat × Except LimitError Unit × Nat)

namespace LimitWorld

variable {α : Type}

/-- The world at the start: nothing stored, nothing registered, no faults. -/
def initial (clock : HandClock) : LimitWorld α where
  clock
  memory := .empty
  failures := fun _ => 0
  delays := fun _ => 0
  registry := .empty
  service := none
  unready := none
  served := 0
  pauses := []
  notes := []
  tokens := 0
  ended := []

/-- Writes notes to the log. -/
def log (w : LimitWorld α) (events : List LimiterEvent) : LimitWorld α :=
  { w with notes := (events.map LimiterEvent.note).reverse ++ w.notes }

/-- The reading of the store's clock. -/
def storeReading (w : LimitWorld α) (rules : LimitRules) (now : Nat) : UInt64 :=
  if rules.manual then w.clock.now else Word.clamp now

/-- The reading of the buckets' clock. -/
def bucketReading (w : LimitWorld α) (rules : LimitRules) (now : Nat) : UInt64 :=
  rules.bucketClock.getD (w.storeReading rules now)

/-- A call of the store without delay or fault of its own. -/
def rawCall (w : LimitWorld α) (rules : LimitRules) (now : Nat) (c : StoreCall) :
    Except StoreFault c.Value × LimitWorld α :=
  let (value, memory) := w.memory.call (w.storeReading rules now) c
  (value, { w with memory })

/-- The fault of a call that is made to fail. -/
def injected (method : StoreMethod) : StoreFault :=
  .unavailable s!"injected {method.name} failure"

/-- A call of the store, unless it is to fail. -/
def call (w : LimitWorld α) (rules : LimitRules) (now : Nat) (c : StoreCall) :
    Except StoreFault c.Value × LimitWorld α :=
  if 0 < w.failures c.method then
    (.error (injected c.method),
      { w with failures := fun m => if m = c.method then w.failures m - 1 else w.failures m })
  else w.rawCall rules now c

/-- Sets how many calls of a kind are to fail. -/
def setFailures (w : LimitWorld α) (method : StoreMethod) (count : Nat) : LimitWorld α :=
  { w with failures := fun m => if m = method then count else w.failures m }

/-- Sets how long calls of a kind take. -/
def setDelay (w : LimitWorld α) (method : StoreMethod) (millis : Nat) : LimitWorld α :=
  { w with delays := fun m => if m = method then millis else w.delays m }

/-- Deals with a question of a lock or bucket. -/
def startLimiter (rules : LimitRules) (ask : Limiter.Ask) (now : Nat) (w : LimitWorld α) :
    Timed (LimitWorld α) ask.Answer :=
  match ask with
  | .store c => ⟨w.delays c.method, false, w, fun now w => w.call rules now c⟩
  | .now => .immediate (w.bucketReading rules now) w
  | .pause length =>
    let w := { w with
      clock := rules.sleeping.moved length w.clock
      pauses := rules.sleeping.record length w.pauses }
    ⟨rules.sleeping.ticks length, rules.sleeping.isWait, w, fun _ w => ((), w)⟩
  | .note event => .immediate () (w.log [event])

/-- Deals with a question of a registered limiter. -/
def startRegistry (rules : LimitRules) (ask : Registry.Ask) (now : Nat) (w : LimitWorld α) :
    Timed (LimitWorld α) ask.Answer :=
  match ask with
  | .limiter ask => startLimiter rules ask now w
  | .enter h => .immediate () { w with registry := w.registry.enter h (Word.clamp now) }
  | .touch h => .immediate () { w with registry := w.registry.touch h (Word.clamp now) }
  | .leave h => .immediate () { w with registry := w.registry.leave h }

/-- The fault of a service that has no script. -/
def unscripted : CallError := .plain "no service"

/-- Deals with a question of a gate. -/
def start (rules : LimitRules) (ask : Gate.Ask) (now : Nat) (w : LimitWorld α) :
    Timed (LimitWorld α) (ask.Answer α) :=
  match ask with
  | .registry ask => startRegistry rules ask now w
  | .limiter key config =>
    let (h, registry, events) := w.registry.getOrCreate key config (Word.clamp now)
    .immediate h ({ w with registry }.log events)
  | .ready =>
    .immediate (match w.unready with
      | some reason => .error (.plain reason)
      | none => .ok ()) w
  | .serve =>
    let w := { w with served := w.served + 1 }
    match w.service with
    | some attempt => ⟨attempt.latency, false, w, fun _ w => (attempt.result, w)⟩
    | none => .immediate (.error unscripted) w

/-- Gives up what a dropped operation held. -/
def giveUp (rules : LimitRules) (held : Registry.Held) (_ : Nat) (w : LimitWorld α) :
    LimitWorld α × List (Gate.Program α Unit) :=
  match held with
  | .busy h => ({ w with registry := w.registry.leave h }, [])
  | .guard guard =>
    if rules.hasBackground then
      (w, [Gate.ofRegistry (Registry.ofLimiter (Limiter.giveUp guard))])
    else (w.log [.lockLeftToExpire guard.key], [])

/-- Sweeps the registry. -/
def sweep (w : LimitWorld α) (now : Nat) : Nat × LimitWorld α :=
  let (removed, registry, events) := w.registry.sweep (Word.clamp now)
  (removed, { w with registry }.log events)

end LimitWorld

namespace LimitRules

/-- The first sweep after an instant; sweeps are multiples of their interval after the start,
unless it is beyond all clocks. -/
def nextSweep (rules : LimitRules) (now : Nat) : Nat :=
  let interval := rules.sweepInterval
  if interval.secs < Duration.clockSecs then
    ((now * 1000000 / interval.nanos + 1) * interval.nanos + 999999) / 1000000
  else now + interval.ticks

/-- The surroundings of limiters before a service. -/
def surroundings (rules : LimitRules) (α : Type) :
    Surroundings (Gate.interface α) (LimitWorld α) where
  start := LimitWorld.start rules
  giveUp := LimitWorld.giveUp rules
  ring now w := ((w.sweep now).2, some (rules.nextSweep now))
  keepsPlaces := false

end LimitRules

end FlowControl.Scenario
