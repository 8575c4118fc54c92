import FlowControl.Limiter.Token
import FlowControl.Scenario.Limits

/-!
# Scenes with limiters

A scene is a store with limiters, locks, a registry and a gate before a scripted
service, on one timeline.  Everything kept between two acts has a name: guards of
locks, handles of limiters, takes in the background.  An act that needs a name
that is not there gives nothing.
-/

namespace FlowControl.Scenario

/-- A scene: its rules, the seed of its tokens, its timeline, and what is kept by name. -/
structure LimitScene (α : Type) where
  rules : LimitRules
  seed : UInt64
  lockConfig : LockConfig
  timeline : Timeline (Gate.interface α) (LimitWorld α)
  guards : List (String × Guard)
  handles : List (String × Handle)
  takes : List (String × Nat)
  gate : Option Gate

namespace LimitScene

variable {α β : Type}

/-- A scene at its start, without sweeps. -/
def initial (rules : LimitRules) (lockConfig : LockConfig) (clock : HandClock)
    (seed : UInt64) : LimitScene α where
  rules
  seed
  lockConfig
  timeline := ⟨0, .initial clock, []⟩
  guards := []
  handles := []
  takes := []
  gate := none

/-- A scene whose registry sweeps, unless sweeping is set up wrongly. -/
def withSweeps (s : LimitScene α) : Except ConfigFault (LimitScene α) :=
  if s.rules.sweepInterval.isZero then .error .noSweepInterval
  else if !s.rules.hasBackground then .error .noBackground
  else .ok { s with
    timeline := { s.timeline with queue := [.alarm (s.rules.nextSweep s.timeline.now)] } }

/-- The surroundings of the scene. -/
def surroundings (s : LimitScene α) : Surroundings (Gate.interface α) (LimitWorld α) :=
  s.rules.surroundings α

/-- The state of the world. -/
def world (s : LimitScene α) : LimitWorld α := s.timeline.world

/-- The present instant. -/
def now (s : LimitScene α) : Nat := s.timeline.now

/-- The reading of the hand clock. -/
def clock (s : LimitScene α) : HandClock := s.world.clock

/-- Changes the timeline. -/
def onTimeline (s : LimitScene α)
    (f : Timeline (Gate.interface α) (LimitWorld α) →
      Timeline (Gate.interface α) (LimitWorld α)) : LimitScene α :=
  { s with timeline := f s.timeline }

/-- Changes the world. -/
def onWorld (s : LimitScene α) (f : LimitWorld α → LimitWorld α) : LimitScene α :=
  s.onTimeline fun t => { t with world := f t.world }

/-- Runs a program in the foreground. -/
def perform (s : LimitScene α) (p : Gate.Program α β) : β × LimitScene α :=
  let (b, timeline) := s.timeline.run s.surroundings p
  (b, { s with timeline })

/-- Runs a program in the foreground and drops it after some milliseconds. -/
def performFor (s : LimitScene α) (millis : Nat) (p : Gate.Program α β) :
    Option β × LimitScene α :=
  let (b, timeline) := s.timeline.runUntil s.surroundings (s.now + millis) p
  (b, { s with timeline })

/-- Lets everything in the background go on that is due. -/
def background (s : LimitScene α) : LimitScene α := s.onTimeline (·.settle s.surroundings)

/-- A program over the store, as one of the scene. -/
def ofLimiter (p : Limiter.Program β) : Gate.Program α β :=
  Gate.ofRegistry (Registry.ofLimiter p)

/-! ## Tokens and reports -/

/-- A token that was not handed out before. -/
def freshToken (s : LimitScene α) : String × LimitScene α :=
  (Limiter.tokenText s.seed s.world.tokens,
    s.onWorld fun w => { w with tokens := w.tokens + 1 })

/-- The notes and pauses since the last report, in order; both start afresh. -/
def report (s : LimitScene α) : List Note × List Duration × LimitScene α :=
  (s.world.notes.reverse, s.world.pauses.reverse,
    s.onWorld fun w => { w with notes := [], pauses := [] })

/-! ## The store -/

/-- A call of the store that meets neither delays nor injected faults. -/
def storeCall (s : LimitScene α) (c : StoreCall) : Except StoreFault c.Value × LimitScene α :=
  let (value, world) := s.world.rawCall s.rules s.now c
  (value, s.onWorld fun _ => world)

/-- The number of live keys of the store. -/
def liveKeys (s : LimitScene α) : Nat :=
  s.world.memory.liveCount (s.world.storeReading s.rules s.now)

/-- Marks the store as unavailable or available. -/
def setOutage (s : LimitScene α) (unavailable : Bool) : LimitScene α :=
  s.onWorld fun w => { w with memory := { w.memory with unavailable } }

/-- Lets a number of calls of a kind fail. -/
def setFailures (s : LimitScene α) (method : StoreMethod) (count : Nat) : LimitScene α :=
  s.onWorld (·.setFailures method count)

/-- Lets calls of a kind take some milliseconds. -/
def setDelay (s : LimitScene α) (method : StoreMethod) (millis : Nat) : LimitScene α :=
  s.onWorld (·.setDelay method millis)

/-! ## Clocks -/

/-- Moves the hand clock forward. -/
def advanceClock (s : LimitScene α) (millis : UInt64) : LimitScene α :=
  s.onWorld fun w => { w with clock := w.clock.advance millis }

/-- Sets the hand clock. -/
def setClock (s : LimitScene α) (millis : UInt64) : LimitScene α :=
  s.onWorld fun w => { w with clock := w.clock.set millis }

/-- Lets virtual time pass. -/
def sleep (s : LimitScene α) (millis : Nat) : LimitScene α :=
  s.onTimeline (·.sleep s.surroundings millis)

/-! ## Locks -/

/-- Drops a guard without releasing its lock. -/
def dropGuard (s : LimitScene α) (guard : Guard) : LimitScene α :=
  s.onTimeline (·.giveUpAll s.surroundings [.guard guard])

/-- Takes the guard of a name away. -/
def removeGuard (s : LimitScene α) (name : String) : LimitScene α :=
  { s with guards := s.guards.filter fun g => g.1 != name }

/-- Takes a lock and keeps its guard; an older guard of this name is dropped. -/
def lock (s : LimitScene α) (name key : String) : Except LimitError String × LimitScene α :=
  let (token, s) := s.freshToken
  let (answer, s) := s.perform (ofLimiter (Limiter.acquire s.lockConfig key token))
  match answer with
  | .error error => (.error error, s)
  | .ok guard =>
    let older := s.guards.lookup name
    let s := s.removeGuard name
    let s := { s with guards := (name, guard) :: s.guards }
    (.ok guard.key, (older.map s.dropGuard).getD s)

/-- Releases the lock of a guard. -/
def release (s : LimitScene α) (name : String) :
    Option (Except StoreFault Unit) × LimitScene α :=
  match s.guards.lookup name with
  | none => (none, s)
  | some guard =>
    let (answer, s) := (s.removeGuard name).perform (ofLimiter (Limiter.release guard))
    (some answer, s)

/-- Releases the lock of a guard, and drops the release after some milliseconds. -/
def releaseFor (s : LimitScene α) (name : String) (millis : Nat) :
    Option (Option (Except StoreFault Unit)) × LimitScene α :=
  match s.guards.lookup name with
  | none => (none, s)
  | some guard =>
    let (answer, s) :=
      (s.removeGuard name).performFor millis (ofLimiter (Limiter.release guard))
    (some answer, s)

/-- Drops a guard. -/
def drop (s : LimitScene α) (name : String) : Option Unit × LimitScene α :=
  match s.guards.lookup name with
  | none => (none, s)
  | some guard => (some (), (s.removeGuard name).dropGuard guard)

/-- Removes a lock whoever owns it. -/
def forceRelease (s : LimitScene α) (key : String) : Except StoreFault Unit × LimitScene α :=
  s.perform (ofLimiter (Limiter.forceRelease key))

/-! ## Buckets -/

/-- Takes tokens from a bucket. -/
def takeFrom (s : LimitScene α) (b : Bucket) (n : UInt64) :
    Except LimitError Unit × LimitScene α :=
  let (token, s) := s.freshToken
  s.perform (ofLimiter (b.take token n))

/-- Resets a bucket. -/
def resetBucket (s : LimitScene α) (b : Bucket) : Except LimitError Unit × LimitScene α :=
  s.perform (ofLimiter b.reset)

/-- Looks at the stored state of a bucket. -/
def peekAt (s : LimitScene α) (b : Bucket) :
    Except LimitError (Option TokenState) × LimitScene α :=
  s.perform (ofLimiter b.peek)

/-- The stored text of a bucket's state. -/
def storedText (s : LimitScene α) (b : Bucket) : Option String × LimitScene α :=
  match s.storeCall (.get b.key.stateKey) with
  | (.ok text, s) => (text, s)
  | (.error _, s) => (none, s)

/-! ## Registered limiters -/

/-- The handle of a name. -/
def handle? (s : LimitScene α) (name : String) : Option Handle := s.handles.lookup name

/-- Looks up the limiter of a key, or makes it, and keeps its handle. -/
def getOrCreate (s : LimitScene α) (name : String) (key : LimiterKey)
    (config : LimiterConfig) : Handle × LimitScene α :=
  let (h, s) := s.perform (Gate.limiterFor key config)
  (h, { s with handles := (name, h) :: s.handles.filter fun p => p.1 != name })

/-- Forgets a handle. -/
def forget (s : LimitScene α) (name : String) : LimitScene α :=
  { s with handles := s.handles.filter fun p => p.1 != name }

/-- Takes tokens. -/
def take (s : LimitScene α) (h : Handle) (n : UInt64) : Except LimitError Unit × LimitScene α :=
  let (token, s) := s.freshToken
  s.perform (Gate.ofRegistry (h.take token n))

/-- Takes tokens, and drops the take after some milliseconds. -/
def takeFor (s : LimitScene α) (h : Handle) (n : UInt64) (millis : Nat) :
    Option (Except LimitError Unit) × LimitScene α :=
  let (token, s) := s.freshToken
  s.performFor millis (Gate.ofRegistry (h.take token n))

/-- Resets a limiter. -/
def reset (s : LimitScene α) (h : Handle) : Except LimitError Unit × LimitScene α :=
  s.perform (Gate.ofRegistry h.reset)

/-- Looks at the stored state of a limiter. -/
def peek (s : LimitScene α) (h : Handle) :
    Except LimitError (Option TokenState) × LimitScene α :=
  s.perform (Gate.ofRegistry h.peek)

/-- What a take in the background leaves behind: its result and when it ended. -/
def legacy (id : Nat) (result : Except LimitError Unit) : Timeline.Legacy (LimitWorld α) :=
  fun now w => { w with ended := (id, result, now) :: w.ended }

/-- Starts a take in the background. -/
def spawnTake (s : LimitScene α) (name : String) (h : Handle) (n : UInt64) : LimitScene α :=
  let (token, s) := s.freshToken
  let id := s.takes.length
  let p : Gate.Program α (Except LimitError Unit) := Gate.ofRegistry (h.take token n)
  let s := s.onTimeline (·.spawn (some id) (p >>= fun result => pure (legacy id result)))
  { s with takes := (name, id) :: s.takes }

/-- Waits for a take in the background: its result and the instant at which it ended. -/
def join (s : LimitScene α) (name : String) :
    Option (Except LimitError Unit × Nat) × LimitScene α :=
  match s.takes.lookup name with
  | none => (none, s)
  | some id =>
    let s := s.onTimeline (·.join s.surroundings id)
    (s.world.ended.lookup id, s)

/-- Drops a take in the background. -/
def abort (s : LimitScene α) (name : String) : LimitScene α :=
  match s.takes.lookup name with
  | none => s
  | some id => s.onTimeline (·.abort s.surroundings id)

/-! ## The registry -/

/-- The number of registered limiters, while there is a registry. -/
def size? (s : LimitScene α) : Option Nat :=
  if s.world.registry.isOpen then some s.world.registry.size else none

/-- Sweeps the registry, if there is one, and tells how many limiters were removed. -/
def sweep (s : LimitScene α) : Option Nat × LimitScene α :=
  if s.world.registry.isOpen then
    let (removed, world) := s.world.sweep s.now
    (some removed, s.onWorld fun _ => world)
  else (none, s)

/-- Are there sweeps to come? -/
def isSweeping (s : LimitScene α) : Bool :=
  s.timeline.queue.any fun
    | .alarm _ => true
    | _ => false

/-- Stops the sweeps. -/
def stopSweeps (s : LimitScene α) : LimitScene α :=
  if s.isSweeping then (s.onTimeline Timeline.silence).onWorld (·.log [.sweeperStopped]) else s

/-- Drops the registry and the gate that uses it. -/
def dropRegistry (s : LimitScene α) : LimitScene α :=
  let s := s.stopSweeps.onWorld fun w => { w with registry := w.registry.close }
  { s with gate := none }

/-! ## The gate -/

/-- Puts up a gate. -/
def setGate (s : LimitScene α) (gate : Gate) : LimitScene α := { s with gate := some gate }

/-- Sends a request through the gate to a service that makes one attempt, or that is not ready
for a reason; the number of calls the services of the scene have got comes with the answer. -/
def request (s : LimitScene α) (who : Identity) (attempt : Attempt α)
    (unready : Option String) : Option (Except Rejection α × Nat) × LimitScene α :=
  match s.gate with
  | none => (none, s)
  | some gate =>
    let (token, s) := s.freshToken
    let s := s.onWorld fun w => { w with service := some attempt, unready }
    let (answer, s) := s.perform (gate.oneshot who token)
    (some (answer, s.world.served), s)

end LimitScene

end FlowControl.Scenario
