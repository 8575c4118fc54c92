import FlowControl.Duration

/-!
# Clocks moved by hand, and sleeps that return at once

A hand clock shows a reading of 64 bits; moving it forward wraps around, setting
it goes anywhere.  A recorder takes the place of sleeping: it notes each length
and may move a hand clock by it.
-/

namespace FlowControl

/-- A clock that moves only by hand. -/
structure HandClock where
  now : UInt64
  deriving DecidableEq, Repr

namespace HandClock

/-- Moves the clock forward, around the end of its range if need be. -/
def advance (c : HandClock) (millis : UInt64) : HandClock := ⟨c.now + millis⟩

/-- Sets the clock. -/
def set (_ : HandClock) (millis : UInt64) : HandClock := ⟨millis⟩

/-- The clock, and what becomes of it by moves one after another. -/
def moveAll (c : HandClock) : List (HandClock → HandClock) → List HandClock
  | [] => [c]
  | move :: moves => c :: (move c).moveAll moves

end HandClock

/-- What sleeping does: time passes, or the sleep is skipped and its length recorded, or a hand
clock moves by it besides. -/
inductive Sleeping where
  | real
  | skipping
  | advancing
  deriving DecidableEq, Repr

namespace Sleeping

/-- How many milliseconds pass while sleeping. -/
def ticks (mode : Sleeping) (length : Duration) : Nat :=
  match mode with
  | .real => length.ticks
  | .skipping | .advancing => 0

/-- Does sleeping wait for a timer, even if it is for no time? -/
def isWait : Sleeping → Bool
  | .real => true
  | .skipping | .advancing => false

/-- The clock after sleeping. -/
def moved (mode : Sleeping) (length : Duration) (c : HandClock) : HandClock :=
  match mode with
  | .advancing => c.advance length.millisWord
  | .real | .skipping => c

/-- The records after sleeping, the last one first. -/
def record (mode : Sleeping) (length : Duration) (records : List Duration) : List Duration :=
  match mode with
  | .real => records
  | _ => length :: records

/-- The clocks after each of some sleeps, and the records of them in order. -/
def sleepAll (mode : Sleeping) (lengths : List Duration) (c : HandClock) :
    List HandClock × List Duration :=
  ((c.moveAll (lengths.map mode.moved)).drop 1,
    (lengths.foldl (fun records length => mode.record length records) []).reverse)

end Sleeping

end FlowControl
