import FlowControl.Routine

/-!
# Routines in virtual time

One routine is in the foreground; tasks and an alarm wait in a queue.  Time counts
milliseconds and moves only when everything waits, to the next instant at which
something is due.  At an instant the foreground goes first and then the queue in
order; what waits again goes to the end of the queue, unless places are kept.

A wait always has an end, so time reaches every instant that is asked for.  A wait may
be empty; a routine that goes on through many such waits at one instant has to let
others go first, and may be dropped there if its time is over.
-/

namespace FlowControl

/-- How a question is dealt with: the answer comes after some milliseconds; the world
changes at once, and again when the answer comes. -/
structure Timed (σ α : Type) where
  ticks : Nat
  /-- Is an answer that comes at once an empty wait? -/
  isWait : Bool
  world : σ
  finish : Nat → σ → α × σ

/-- A question answered at once, without any wait. -/
def Timed.immediate {σ α : Type} (a : α) (s : σ) : Timed σ α :=
  ⟨0, false, s, fun _ s => (a, s)⟩

/-- Surroundings in which time passes, with a world as state. -/
structure Surroundings (I : Interface) (σ : Type) where
  /-- Deals with a question at an instant. -/
  start : (r : I.Request) → Nat → σ → Timed σ (I.Answer r)
  /-- Gives up what a dropped routine held; this may leave work for later. -/
  giveUp : I.Held → Nat → σ → σ × List (Routine I Unit)
  /-- Lets the alarm ring; it may be set again. -/
  ring : Nat → σ → σ × Option Nat
  /-- Do tasks that wait again keep their places in the queue? -/
  keepsPlaces : Bool

namespace Timeline

variable {I : Interface} {σ α : Type}

/-- What a task leaves behind: a change of the world at the instant at which it ends. -/
abbrev Legacy (σ : Type) := Nat → σ → σ

/-- A routine that waits: until when, what it holds, and how it goes on. -/
structure Parked (I : Interface) (σ α : Type) where
  wake : Nat
  held : List I.Held
  resume : Nat → σ → Routine I α × σ

/-- What waits in the queue: a task, perhaps with a number, the alarm, or the place of
the routine in the foreground. -/
inductive Item (I : Interface) (σ : Type) where
  | task (id : Option Nat) (parked : Parked I σ (Legacy σ))
  | alarm (wake : Nat)
  | foreground

/-- When an item is due, if it waits for an instant. -/
def Item.wake? : Item I σ → Option Nat
  | .task _ p => some p.wake
  | .alarm wake => some wake
  | .foreground => none

/-- Is an item the task of this number? -/
def Item.isTask (id : Nat) : Item I σ → Bool
  | .task (some other) _ => other == id
  | _ => false

/-- How many waits may end while routines go on before they have to let others go first. -/
def patience : Nat := 128

/-- Lets a routine go on until it waits, ends, or meets an empty wait when no more of them are
allowed; how many still are comes with what is left. -/
def start (S : Surroundings I σ) (now : Nat) :
    Nat → Routine I α → σ → (Parked I σ α ⊕ α) × Nat × σ
  | allowed, .done a, s => (.inr a, allowed, s)
  | allowed, .ask r held resume, s =>
    let timed := S.start r now s
    if timed.ticks = 0 ∧ (timed.isWait → 0 < allowed) then
      let (a, s) := timed.finish now timed.world
      start S now (if timed.isWait then allowed - 1 else allowed) (resume a) s
    else
      (.inl ⟨now + timed.ticks, held, fun now s =>
        let (a, s) := timed.finish now s
        (resume a, s)⟩, allowed, timed.world)

/-- Lets a routine go on until it waits or ends. -/
def drive (S : Surroundings I σ) (now : Nat) : Routine I α → σ → (Parked I σ α ⊕ α) × σ
  | .done a, s => (.inr a, s)
  | .ask r held resume, s =>
    let timed := S.start r now s
    if timed.ticks = 0 then
      let (a, s) := timed.finish now timed.world
      drive S now (resume a) s
    else
      (.inl ⟨now + timed.ticks, held, fun now s =>
        let (a, s) := timed.finish now s
        (resume a, s)⟩, timed.world)

/-- Lets a due item go on; it may wait again. -/
def Item.advance (S : Surroundings I σ) (now : Nat) : Item I σ → σ → Option (Item I σ) × σ
  | .task id p, s =>
    let (r, s) := p.resume now s
    match drive S now r s with
    | (.inl p, s) => (some (.task id p), s)
    | (.inr legacy, s) => (none, legacy now s)
  | .alarm _, s =>
    let (s, next) := S.ring now s
    (next.map .alarm, s)
  | .foreground, s => (some .foreground, s)

/-- Lets every due item of a queue go on, in order.  Each item that is left comes with
whether it waits again. -/
def advanceAll (S : Surroundings I σ) (now : Nat) :
    List (Item I σ) → σ → List (Bool × Item I σ) × σ
  | [], s => ([], s)
  | item :: items, s =>
    if item.wake?.any (· ≤ now) then
      let (left, s) := item.advance S now s
      let (rest, s) := advanceAll S now items s
      (left.toList.map (fun i => (true, i)) ++ rest, s)
    else
      let (rest, s) := advanceAll S now items s
      ((false, item) :: rest, s)

/-- The queue after its due items went on. -/
def requeue (keepsPlaces : Bool) (items : List (Bool × Item I σ)) : List (Item I σ) :=
  if keepsPlaces then items.map Prod.snd
  else (items.filter (!·.1) ++ items.filter (·.1)).map Prod.snd

/-- The first instant at which an item of a queue is due. -/
def nextWake? (queue : List (Item I σ)) : Option Nat := (queue.filterMap Item.wake?).min?

end Timeline

/-- The instant, the world, and what waits. -/
structure Timeline (I : Interface) (σ : Type) where
  now : Nat
  world : σ
  queue : List (Timeline.Item I σ)

namespace Timeline

variable {I : Interface} {σ α : Type}

/-- Lets everything go on that is due now. -/
def settle (S : Surroundings I σ) (t : Timeline I σ) : Timeline I σ :=
  let (items, world) := advanceAll S t.now t.queue t.world
  { t with world, queue := requeue S.keepsPlaces items }

/-- Lets time pass up to an instant; what is due exactly then is left for later. -/
def passTo (S : Surroundings I σ) (target : Nat) (t : Timeline I σ) : Timeline I σ :=
  let settled := t.settle S
  match nextWake? settled.queue with
  | none => { settled with now := target }
  | some wake =>
    if t.now < wake ∧ wake < target then passTo S target { settled with now := wake }
    else { settled with now := target }
termination_by target - t.now

/-- Puts a routine at the end of the queue, to be started when the queue next goes on. -/
def spawn (id : Option Nat) (r : Routine I (Legacy σ)) (t : Timeline I σ) : Timeline I σ :=
  { t with queue := t.queue ++ [.task id ⟨t.now, [], fun _ s => (r, s)⟩] }

/-- Gives up what a dropped routine held, in order. -/
def giveUpAll (S : Surroundings I σ) : List I.Held → Timeline I σ → Timeline I σ
  | [], t => t
  | held :: more, t =>
    let (world, jobs) := S.giveUp held t.now t.world
    let t := jobs.foldl (fun t job => t.spawn none (job >>= fun _ => pure fun _ s => s))
      { t with world }
    giveUpAll S more t

/-- Runs a routine in the foreground to its end. -/
def run (S : Surroundings I σ) : Routine I α → Timeline I σ → α × Timeline I σ
  | .done a, t => (a, t)
  | .ask r _ resume, t =>
    let timed := S.start r t.now t.world
    let t := { t with world := timed.world }
    let t := if timed.ticks = 0 then t else t.passTo S (t.now + timed.ticks)
    let (a, world) := timed.finish t.now t.world
    run S (resume a) { t with world }

/-- Runs a routine in the foreground and drops it at an instant, unless it has ended by then
without letting others go first; some more waits may end before it has to. -/
def runUntilFrom (S : Surroundings I σ) (deadline : Nat) :
    (allowed : Nat) → Routine I α → Timeline I σ → Option α × Timeline I σ
  | _, .done a, t => (some a, t)
  | allowed, .ask r held resume, t =>
    let timed := S.start r t.now t.world
    let t := { t with world := timed.world }
    let yields := timed.isWait && allowed == 0
    if deadline < t.now + timed.ticks ∨ (yields ∧ deadline ≤ t.now) then
      let t := if t.now < deadline then t.passTo S deadline else t
      (none, t.giveUpAll S held)
    else
      let allowed :=
        if 0 < timed.ticks ∨ yields then patience - 1
        else if timed.isWait then allowed - 1
        else allowed
      let t := if timed.ticks = 0 then t else t.passTo S (t.now + timed.ticks)
      let (a, world) := timed.finish t.now t.world
      runUntilFrom S deadline allowed (resume a) { t with world }

/-- Runs a routine in the foreground and drops it at an instant, unless it has ended by then. -/
def runUntil (S : Surroundings I σ) (deadline : Nat) :
    Routine I α → Timeline I σ → Option α × Timeline I σ :=
  runUntilFrom S deadline patience

/-- Lets time pass. -/
def sleep (S : Surroundings I σ) (ticks : Nat) (t : Timeline I σ) : Timeline I σ :=
  if ticks = 0 then t else t.passTo S (t.now + ticks)

/-- Lets time pass up to an instant at which the foreground has a place in the queue, and
lets what is due before it go on. -/
def passToPlace (S : Surroundings I σ) (target : Nat) (t : Timeline I σ) : Timeline I σ :=
  let t := t.passTo S target
  let isTask : Item I σ → Bool := fun
    | .foreground => false
    | _ => true
  let ahead := t.queue.takeWhile isTask
  let behind := (t.queue.dropWhile isTask).drop 1
  let (items, world) := advanceAll S t.now ahead t.world
  let kept := items.filter (!·.1)
  let moved := items.filter (·.1)
  { t with world, queue := kept.map Prod.snd ++ behind ++ moved.map Prod.snd }

/-- Runs a task in the foreground that keeps its place in the queue, as one among the others. -/
def runInPlace (S : Surroundings I σ) : Routine I α → Timeline I σ → α × Timeline I σ
  | .done a, t => (a, t)
  | .ask r _ resume, t =>
    let timed := S.start r t.now t.world
    let t := { t with world := timed.world }
    let t :=
      if timed.ticks = 0 then t
      else { t with queue := t.queue ++ [Item.foreground] }.passToPlace S (t.now + timed.ticks)
    let (a, world) := timed.finish t.now t.world
    runInPlace S (resume a) { t with world }

/-- Runs the task of a number to its end, if it still waits. -/
def join (S : Surroundings I σ) (id : Nat) (t : Timeline I σ) : Timeline I σ :=
  let ahead := t.queue.takeWhile (!·.isTask id)
  match t.queue.dropWhile (!·.isTask id) with
  | .task _ p :: behind =>
    let t := { t with queue := ahead ++ Item.foreground :: behind }.passToPlace S p.wake
    let (r, world) := p.resume t.now t.world
    let (legacy, t) := runInPlace S r { t with world }
    { t with world := legacy t.now t.world }
  | _ => t

/-- Drops the task of a number, if it still waits. -/
def abort (S : Surroundings I σ) (id : Nat) (t : Timeline I σ) : Timeline I σ :=
  let ahead := t.queue.takeWhile (!·.isTask id)
  match t.queue.dropWhile (!·.isTask id) with
  | .task _ p :: behind => { t with queue := ahead ++ behind }.giveUpAll S p.held
  | _ => t

/-- Removes the alarm. -/
def silence (t : Timeline I σ) : Timeline I σ :=
  { t with queue := t.queue.filter fun
    | .alarm _ => false
    | _ => true }

/-- Runs the first task of the queue in the foreground to its end. -/
def runFirst (S : Surroundings I σ) (t : Timeline I σ) : Timeline I σ :=
  match t.queue with
  | .task _ p :: behind =>
    let t := { t with queue := behind }
    let t := if t.now < p.wake then t.passTo S p.wake else t
    let (r, world) := p.resume t.now t.world
    let (legacy, t) := run S r { t with world }
    { t with world := legacy t.now t.world }
  | _ => t

/-- Starts routines one after another at the end of the queue; together they may go on through
some empty waits. -/
def startAll (S : Surroundings I σ) :
    (allowed : Nat) → List (Routine I (Legacy σ)) → Timeline I σ → Timeline I σ
  | _, [], t => t
  | allowed, r :: rs, t =>
    match start S t.now allowed r t.world with
    | (.inl p, allowed, world) =>
      startAll S allowed rs { t with world, queue := t.queue ++ [.task none p] }
    | (.inr legacy, allowed, world) =>
      startAll S allowed rs { t with world := legacy t.now world }

/-- Runs routines side by side until all have ended.  Where they have to let others go first,
only those that have not begun yet do so; after that their order at an instant is kept. -/
def runTogether (S : Surroundings I σ) (rs : List (Routine I (Legacy σ))) (t : Timeline I σ) :
    Timeline I σ :=
  rs.foldl (fun t _ => t.runFirst S) (t.startAll S patience rs)

end Timeline

end FlowControl
