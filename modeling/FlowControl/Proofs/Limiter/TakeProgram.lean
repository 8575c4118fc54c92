import FlowControl.Proofs.Limiter.Surroundings
import FlowControl.Proofs.Routine

/-!
# What a take asks, and in which order

A take stands outside its lock or inside.  Outside it tries, pauses and reports; when
a try succeeds it goes on as `entered`, however long it has tried.  Inside it reads
the clock, reads and stores the state, and gives the lock back; once it has stored the
state or given the lock back it is quiet and does not look at the state again.  A take
that is inside ends after nine answers at most.

This holds whatever the answers are, so nothing is assumed here of the store.
-/

namespace FlowControl

open Limiter

/-- What holds of a try, of the pauses between tries and of the reports on them holds of all
questions that are asked for a lock. -/
theorem Limiter.asks_acquireFrom_of {P : Ask → List Guard → Prop} {config : LockConfig}
    {key token : String} (htry : P (.store (.setIfAbsent key token config.ttl)) [])
    (hpause : ∀ length, P (.pause length) [])
    (hacquired : P (.note (.lockAcquired key)) [⟨key, token⟩])
    (htimedOut : ∀ waited, P (.note (.lockTimedOut key waited)) []) (waited : Duration) :
    (acquireFrom config key token waited).Asks P := by
  rw [acquireFrom]
  refine ⟨htry, ?_⟩
  rintro (fault | _ | _)
  · trivial
  · show Routine.Asks _ (if _ then _ else _)
    split
    · exact ⟨htimedOut waited, fun _ => trivial⟩
    · exact ⟨hpause _, fun _ => asks_acquireFrom_of htry hpause hacquired htimedOut _⟩
  · exact ⟨hacquired, fun _ => trivial⟩
termination_by config.acquireTimeout.nanos - waited.nanos
decreasing_by exact nextPause_decreases (by assumption)

namespace Bucket

variable {b : Bucket} {token : String} {n : UInt64}

/-! ## The pieces of a take -/

/-- What a take does with the refilled state. -/
def charge (b : Bucket) (n : UInt64) (s : TokenState) : Program (Except LimitError Unit) :=
  if n ≤ s.tokens then b.save (s.spend n)
  else (b.save s).bind fun
    | .error error => .done (.error error)
    | .ok () => (note (.exceeded b.key s.tokens b.config.interval)).bind fun _ =>
      .done (.error (.exceeded b.config.interval))

/-- How a take ends when its result is known. -/
def reported (b : Bucket) : Except LimitError Unit → Program (Except LimitError Unit)
  | .error error =>
    if error.isBackendFailure then
      (note (.bucketFailed b.key error)).bind fun _ => .done (.error error)
    else .done (.error error)
  | .ok () => .done (.ok ())

/-- How a take ends when it has tried to give the lock back. -/
def handedBack (b : Bucket) (result : Except LimitError Unit) :
    Except StoreFault Unit → Program (Except LimitError Unit)
  | .error fault => (note (.releaseFailed b.key fault)).bind fun _ => b.reported result
  | .ok () => b.reported result

/-- What a take does with the outcome of its tries for the lock. -/
def afterTries (b : Bucket) (n : UInt64) :
    Except LimitError Guard → Program (Except LimitError Unit)
  | .error error => .done (.error error)
  | .ok guard =>
    ((b.takeLocked n).holding guard).bind fun result =>
      (release guard).bind (b.handedBack result)

theorem takeLocked_eq (b : Bucket) (n : UInt64) :
    b.takeLocked n = Limiter.now.bind fun now => b.load.bind fun
      | .error error => .done (.error error)
      | .ok stored => b.charge n (b.refilled stored now) := rfl

theorem take_eq (b : Bucket) (token : String) (n : UInt64) :
    b.take token n = (acquire b.config.lock b.key.lockKey token).bind (b.afterTries n) := rfl

/-- A take from the moment it has the lock. -/
def entered (b : Bucket) (token : String) (n : UInt64) : Program (Except LimitError Unit) :=
  ((note (.lockAcquired b.key.lockKey)).holding (Guard.mk b.key.lockKey token)).bind fun _ =>
    b.afterTries n (.ok ⟨b.key.lockKey, token⟩)

/-- A try for the lock of a bucket. -/
abbrev lockTry (b : Bucket) (token : String) : Ask :=
  .store (.setIfAbsent b.key.lockKey token b.config.lock.ttl)

/-- Does the program only try for the lock, and go on as `inside` when it has it? -/
def Outside (b : Bucket) (token : String) (inside : Program (Except LimitError Unit)) :
    Program (Except LimitError Unit) → Prop
  | .done _ => True
  | .ask (.store (.setIfAbsent key value ttl)) _ resume =>
    key = b.key.lockKey ∧ value = token ∧ ttl = b.config.lock.ttl ∧
      resume (.ok true) = inside ∧ Outside b token inside (resume (.ok false))
  | .ask (.pause _) _ resume => Outside b token inside (resume ())
  | .ask (.note _) _ resume => Outside b token inside (resume ())
  | .ask _ _ _ => False

/-- Questions of a take that is inside. -/
def HolderAsk (b : Bucket) (token : String) : Ask → Prop
  | .store (.get key) | .store (.set key _ _) => key = b.key.stateKey
  | .store (.deleteIfEqual key value) => key = b.key.lockKey ∧ value = token
  | .now | .note _ => True
  | _ => False

/-- Questions of a take that has stored the state or given the lock back. -/
def LateAsk (b : Bucket) (token : String) : Ask → Prop
  | .store (.deleteIfEqual key value) => key = b.key.lockKey ∧ value = token
  | .note _ => True
  | _ => False

/-- Questions that store the state or give the lock back. -/
def Settles : Ask → Prop
  | .store (.set ..) | .store (.deleteIfEqual ..) => True
  | _ => False

/-- Does the program only give the lock back and report? -/
abbrev Quiet (b : Bucket) (token : String) {α : Type} (p : Program α) : Prop :=
  p.Asks fun ask _ => LateAsk b token ask

/-- Does the program ask as a take that is inside, and nothing but late questions once it has
stored the state or given the lock back? -/
def Inside (b : Bucket) (token : String) {α : Type} : Program α → Prop
  | .done _ => True
  | .ask ask _ resume =>
    HolderAsk b token ask ∧
      ∀ answer, Inside b token (resume answer) ∧ (Settles ask → Quiet b token (resume answer))

theorem holderAsk_of_lateAsk {ask : Ask} (h : LateAsk b token ask) : HolderAsk b token ask := by
  unfold LateAsk at h
  split at h
  · exact h
  · trivial
  · exact h.elim

theorem inside_of_quiet {α : Type} {p : Program α} (h : Quiet b token p) :
    Inside b token p := by
  induction p with
  | done a => trivial
  | ask r held resume ih =>
      exact ⟨holderAsk_of_lateAsk h.1, fun answer => ⟨ih answer (h.2 answer), fun _ => h.2 answer⟩⟩

theorem quiet_note (event : LimiterEvent) : Quiet b token (note event) :=
  ⟨trivial, fun _ => trivial⟩

/-- What is quiet may follow what is inside. -/
theorem Inside.bind {α β : Type} {p : Program α} {next : α → Program β} (hp : Inside b token p)
    (hnext : ∀ a, Quiet b token (next a)) : Inside b token (p.bind next) := by
  induction p with
  | done a => exact inside_of_quiet (hnext a)
  | ask r held resume ih =>
      refine ⟨hp.1, fun answer => ⟨ih answer (hp.2 answer).1, fun hsettles => ?_⟩⟩
      exact ((hp.2 answer).2 hsettles).bind Routine.yields_true fun a _ => hnext a

/-- What is inside may follow what settles nothing. -/
theorem Inside.after {α β : Type} {p : Program α} {next : α → Program β}
    (hp : p.Asks fun ask _ => HolderAsk b token ask ∧ ¬ Settles ask)
    (hnext : ∀ a, Inside b token (next a)) : Inside b token (p.bind next) := by
  induction p with
  | done a => exact hnext a
  | ask r held resume ih =>
      refine ⟨hp.1.1, fun answer => ⟨ih answer (hp.2 answer), fun hsettles => ?_⟩⟩
      exact absurd hsettles hp.1.2

theorem inside_holding {α : Type} {p : Program α} {g : Guard} (h : Inside b token p) :
    Inside b token (p.holding g) := by
  induction p with
  | done a => trivial
  | ask r held resume ih =>
      refine ⟨h.1, fun answer => ⟨ih answer (h.2 answer).1, fun hsettles => ?_⟩⟩
      rw [Quiet, Routine.asks_holding]
      exact (h.2 answer).2 hsettles

/-- What is inside asks nothing else. -/
theorem asks_of_inside {α : Type} {p : Program α} (h : Inside b token p) :
    p.Asks fun ask _ => HolderAsk b token ask := by
  induction p with
  | done a => trivial
  | ask ask held resume ih => exact ⟨h.1, fun answer => ih answer (h.2 answer).1⟩

/-! ## Inside a take -/

theorem inside_save (s : TokenState) : Inside b token (b.save s) := by
  refine ⟨rfl, ?_⟩
  rintro (fault | _)
  · exact ⟨trivial, fun _ => trivial⟩
  · exact ⟨trivial, fun _ => trivial⟩

theorem inside_charge (n : UInt64) (s : TokenState) : Inside b token (b.charge n s) := by
  unfold charge
  split
  · exact inside_save _
  · refine (inside_save _).bind ?_
    rintro (error | _)
    · trivial
    · exact (quiet_note _).bind Routine.yields_true fun _ _ => trivial

theorem asks_load : b.load.Asks fun ask _ => HolderAsk b token ask ∧ ¬ Settles ask := by
  refine ⟨⟨rfl, id⟩, ?_⟩
  rintro (fault | _ | text)
  · trivial
  · trivial
  · simp only [Routine.done_bind]
    split
    · trivial
    · trivial

theorem inside_takeLocked (n : UInt64) : Inside b token (b.takeLocked n) := by
  rw [takeLocked_eq]
  refine Inside.after ⟨⟨trivial, id⟩, fun _ => trivial⟩ fun now => ?_
  refine Inside.after asks_load ?_
  rintro (error | stored)
  · trivial
  · exact inside_charge n _

theorem quiet_release (g : Guard) (hkey : g.key = b.key.lockKey) (htoken : g.token = token) :
    Quiet b token (release g) := by
  refine ⟨⟨hkey, htoken⟩, ?_⟩
  rintro (fault | _ | _)
  · trivial
  · exact (quiet_note _).bind Routine.yields_true fun _ _ => trivial
  · trivial

theorem quiet_reported (result : Except LimitError Unit) :
    Quiet b token (b.reported result) := by
  unfold reported
  split
  · split
    · exact (quiet_note _).bind Routine.yields_true fun _ _ => trivial
    · trivial
  · trivial

theorem quiet_handedBack (result : Except LimitError Unit) (released : Except StoreFault Unit) :
    Quiet b token (b.handedBack result released) := by
  rcases released with fault | _
  · exact (quiet_note _).bind Routine.yields_true fun _ _ => quiet_reported result
  · exact quiet_reported result

/-- A take that has the lock is inside. -/
theorem inside_entered (b : Bucket) (token : String) (n : UInt64) :
    Inside b token (b.entered token n) := by
  refine Inside.after ⟨⟨trivial, id⟩, fun _ => trivial⟩ fun _ => ?_
  refine (inside_holding (inside_takeLocked n)).bind fun result => ?_
  exact (quiet_release _ rfl rfl).bind Routine.yields_true fun released _ =>
    quiet_handedBack result released

/-! ## How long a take is inside -/

theorem within_note (event : LimiterEvent) : (note event).Within 1 :=
  fun _ => Routine.within_done _

theorem within_save (s : TokenState) : (b.save s).Within 1 := by
  rintro (fault | _)
  · exact Routine.within_done _
  · exact Routine.within_done _

theorem within_charge (n : UInt64) (s : TokenState) : (b.charge n s).Within 2 := by
  unfold charge
  split
  · exact (within_save _).mono (by decide)
  · refine (within_save _).bind (k := 1) ?_
    rintro (error | _)
    · exact Routine.within_done _
    · exact (within_note _).bind (k := 0) fun _ => Routine.within_done _

theorem within_load : b.load.Within 1 := by
  rintro (fault | _ | text)
  · exact Routine.within_done _
  · exact Routine.within_done _
  · simp only [Routine.done_bind]
    split
    · exact Routine.within_done _
    · exact Routine.within_done _

theorem within_takeLocked (n : UInt64) : (b.takeLocked n).Within 4 := by
  rw [takeLocked_eq]
  refine Routine.Within.bind (n := 1) (k := 3) (fun _ => Routine.within_done _) fun now => ?_
  refine within_load.bind (k := 2) ?_
  rintro (error | stored)
  · exact Routine.within_done _
  · exact within_charge n _

theorem within_release (g : Guard) : (release g).Within 2 := by
  rintro (fault | _ | _)
  · exact Routine.within_done _
  · exact (within_note _).bind (k := 0) fun _ => Routine.within_done _
  · exact Routine.within_done _

theorem within_reported (result : Except LimitError Unit) : (b.reported result).Within 1 := by
  unfold reported
  split
  · split
    · exact (within_note _).bind (k := 0) fun _ => Routine.within_done _
    · exact Routine.within_done _
  · exact Routine.within_done _

theorem within_handedBack (result : Except LimitError Unit)
    (released : Except StoreFault Unit) : (b.handedBack result released).Within 2 := by
  rcases released with fault | _
  · exact (within_note _).bind fun _ => within_reported result
  · exact (within_reported result).mono (by decide)

/-- A take that has the lock ends soon, whatever it is answered. -/
theorem within_entered (b : Bucket) (token : String) (n : UInt64) :
    (b.entered token n).Within 9 := by
  refine (within_note _).holding.bind (k := 8) fun _ => ?_
  refine (within_takeLocked n).holding.bind (k := 4) fun result => ?_
  exact (within_release _).bind fun released => within_handedBack result released

/-! ## Outside a take -/

/-- A take begins outside, and goes on in the same way whenever it gets the lock. -/
theorem outside_tries (b : Bucket) (token : String) (n : UInt64) (waited : Duration) :
    Outside b token (b.entered token n)
      ((acquireFrom b.config.lock b.key.lockKey token waited).bind (b.afterTries n)) := by
  rw [acquireFrom]
  refine ⟨rfl, rfl, rfl, rfl, ?_⟩
  show Outside _ _ _ (Routine.bind (if _ then _ else _) _)
  split
  · trivial
  · exact outside_tries b token n _
termination_by b.config.lock.acquireTimeout.nanos - waited.nanos
decreasing_by exact nextPause_decreases (by assumption)

theorem outside_take (b : Bucket) (token : String) (n : UInt64) :
    Outside b token (b.entered token n) (b.take token n) := by
  rw [take_eq]
  exact outside_tries b token n .zero

/-- The first question of a take is a try for the lock. -/
theorem take_tries (b : Bucket) (token : String) (n : UInt64) :
    ∃ resume, b.take token n = .ask (b.lockTry token) [] resume ∧
      resume (.ok true) = b.entered token n := by
  rw [take_eq, acquire, acquireFrom]
  exact ⟨_, rfl, rfl⟩

end Bucket

end FlowControl
