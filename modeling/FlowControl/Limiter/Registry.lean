import FlowControl.Limiter.Bucket

/-!
# The live limiters of a process

A registry keeps one bucket for each key.  It counts the operations that run on
every bucket it ever made and remembers when each was last used; a sweep removes
those that are idle for longer than their interval.  A handle outlives its place
in the registry and takes it again when it is used, if the place is free.
-/

namespace FlowControl

/-- A bucket that a registry made, and its number among them. -/
structure Handle where
  id : Nat
  bucket : Bucket
  deriving DecidableEq, Repr

namespace Handle

/-- The key of the handle's bucket. -/
def key (h : Handle) : LimiterKey := h.bucket.key

/-- How many milliseconds the bucket may be idle. -/
def patience (h : Handle) : UInt64 := h.bucket.config.intervalMillis

end Handle

/-- How a bucket is used: when last, and by how many operations now. -/
structure Usage where
  lastAccess : UInt64
  inFlight : Nat
  deriving DecidableEq, Repr

namespace Usage

/-- Notes an access; readings that go back do not count. -/
def touch (u : Usage) (now : UInt64) : Usage :=
  { u with lastAccess := if u.lastAccess ≤ now then now else u.lastAccess }

/-- One more operation runs. -/
def enter (u : Usage) (now : UInt64) : Usage :=
  { u with inFlight := u.inFlight + 1 }.touch now

/-- One operation less runs. -/
def leave (u : Usage) : Usage := { u with inFlight := u.inFlight - 1 }

/-- Is nothing running, and has nothing happened for longer than `patience`? -/
def isIdle (u : Usage) (patience now : UInt64) : Bool :=
  u.inFlight == 0 && decide (patience < Word.sub now u.lastAccess)

end Usage

/-- The usage of every bucket made so far by number, and the handles registered now. -/
structure Registry where
  usages : List Usage
  registered : List Handle
  isOpen : Bool
  deriving Repr

namespace Registry

/-- A registry without limiters. -/
def empty : Registry := ⟨[], [], true⟩

instance : Inhabited Registry := ⟨empty⟩

/-- The number of registered limiters. -/
def size (r : Registry) : Nat := r.registered.length

/-- The handle registered for a key. -/
def find? (r : Registry) (key : LimiterKey) : Option Handle :=
  r.registered.find? fun h => h.key == key

/-- How a bucket is used. -/
def usage (r : Registry) (h : Handle) : Usage := r.usages[h.id]?.getD ⟨0, 0⟩

/-- Changes how a bucket is used. -/
def modify (r : Registry) (h : Handle) (change : Usage → Usage) : Registry :=
  { r with usages := r.usages.modify h.id change }

/-- Notes an access to a bucket. -/
def touch (r : Registry) (h : Handle) (now : UInt64) : Registry := r.modify h (·.touch now)

/-- Registers a handle if the registry is open and the key is free. -/
def register (r : Registry) (h : Handle) : Registry :=
  if r.isOpen && (r.find? h.key).isNone then { r with registered := r.registered ++ [h] } else r

/-- Starts an operation on a handle, which takes its place again if that is free. -/
def enter (r : Registry) (h : Handle) (now : UInt64) : Registry :=
  (r.register h).modify h (·.enter now)

/-- Ends an operation on a handle. -/
def leave (r : Registry) (h : Handle) : Registry := r.modify h Usage.leave

/-- A bucket that was not there before. -/
def create (r : Registry) (bucket : Bucket) (now : UInt64) : Handle × Registry :=
  let h : Handle := ⟨r.usages.length, bucket⟩
  (h, { r with usages := r.usages ++ [⟨now, 0⟩], registered := r.registered ++ [h] })

/-- The handle for a key, made with a configuration if the key has none. -/
def getOrCreate (r : Registry) (key : LimiterKey) (config : LimiterConfig) (now : UInt64) :
    Handle × Registry × List LimiterEvent :=
  match r.find? key with
  | some h => (h, r.touch h now, [])
  | none =>
    let (h, r) := r.create ⟨key, config⟩ now
    (h, r, [.created key])

/-- Has a handle been idle for too long? -/
def isIdle (r : Registry) (now : UInt64) (h : Handle) : Bool := (r.usage h).isIdle h.patience now

/-- Removes the idle limiters and tells how many there were. -/
def sweep (r : Registry) (now : UInt64) : Nat × Registry × List LimiterEvent :=
  let idle := r.registered.filter (r.isIdle now)
  let kept := r.registered.filter fun h => !r.isIdle now h
  let events := idle.map fun h => LimiterEvent.reclaiming h.key
  let summary := if idle.isEmpty then [] else [.reclaimed idle.length kept.length]
  (idle.length, { r with registered := kept }, events ++ summary)

/-- Closes the registry: its handles stay usable but find no registry any more. -/
def close (r : Registry) : Registry := { r with registered := [], isOpen := false }

end Registry

end FlowControl
