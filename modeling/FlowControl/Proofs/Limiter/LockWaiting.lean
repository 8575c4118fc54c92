import FlowControl.Limiter.Lock
import Mathlib.Algebra.Order.Floor.Div

/-!
# How long a lock is waited for

A script says which tries for a lock are granted.  Against any script the tries follow one
another, each after a pause, up to the first one that is granted.  The pauses last as long as the
timing of the lock says; the last one is cut off where the time to wait ends.  A lock that is never
granted is tried once more after that, and then no longer.

Nothing is said about how long a try takes: only pauses count as waiting.
-/

namespace FlowControl

namespace LockConfig

/-- How many pauses fill the time to wait. -/
def pauses (c : LockConfig) : Nat := c.acquireTimeout.nanos ⌈/⌉ c.retryInterval.nanos

/-- How long it has been waited when a try comes after this many pauses. -/
def waitedAfter (c : LockConfig) (i : Nat) : Duration :=
  .ofNanos (min (i * c.retryInterval.nanos) c.acquireTimeout.nanos)

/-- The length of a pause, the first one under number one: the retry interval, or what the pauses
before it have left of the time to wait. -/
def pauseBefore (c : LockConfig) (i : Nat) : Duration :=
  .ofNanos (min c.retryInterval.nanos
    (c.acquireTimeout.nanos - (i - 1) * c.retryInterval.nanos))

variable {c : LockConfig} {i : Nat}

@[simp] theorem nanos_waitedAfter (c : LockConfig) (i : Nat) :
    (c.waitedAfter i).nanos = min (i * c.retryInterval.nanos) c.acquireTimeout.nanos :=
  Duration.nanos_ofNanos_of_le ((Nat.min_le_right ..).trans c.acquireTimeout.nanos_le)

@[simp] theorem nanos_pauseBefore (c : LockConfig) (i : Nat) :
    (c.pauseBefore i).nanos =
      min c.retryInterval.nanos (c.acquireTimeout.nanos - (i - 1) * c.retryInterval.nanos) :=
  Duration.nanos_ofNanos_of_le ((Nat.min_le_left ..).trans c.retryInterval.nanos_le)

theorem waitedAfter_zero (c : LockConfig) : c.waitedAfter 0 = .zero := by
  ext
  simp

/-- Each pause adds its length to what has been waited. -/
theorem nanos_waitedAfter_succ (c : LockConfig) (i : Nat) :
    (c.waitedAfter (i + 1)).nanos = (c.waitedAfter i).nanos + (c.pauseBefore (i + 1)).nanos := by
  simp only [nanos_waitedAfter, nanos_pauseBefore, Nat.add_sub_cancel, Nat.succ_mul]
  omega

theorem waitedAfter_succ (c : LockConfig) (i : Nat) :
    c.waitedAfter (i + 1) = (c.waitedAfter i).add (c.pauseBefore (i + 1)) := by
  ext
  rw [Duration.nanos_add, ← nanos_waitedAfter_succ, Nat.min_eq_left (Duration.nanos_le _)]

/-- A valid timing pauses between two tries. -/
theorem retryInterval_pos (h : c.check = .ok ()) : 0 < c.retryInterval.nanos := by
  refine Nat.pos_of_ne_zero fun hzero => ?_
  unfold check at h
  rw [if_pos ((Duration.isZero_iff _).mpr hzero)] at h
  split at h <;> cases h

/-- The time to wait is over after these pauses, and not before. -/
theorem pauses_le_iff (h : c.check = .ok ()) :
    c.pauses ≤ i ↔ c.acquireTimeout.nanos ≤ i * c.retryInterval.nanos := by
  rw [pauses, ceilDiv_le_iff_le_mul (retryInterval_pos h), Nat.mul_comm]

/-- Once the time to wait is over, just that time has been waited. -/
theorem waitedAfter_of_le (h : c.check = .ok ()) (hover : c.pauses ≤ i) :
    c.waitedAfter i = c.acquireTimeout := by
  ext
  rw [nanos_waitedAfter, Nat.min_eq_right ((pauses_le_iff h).mp hover)]

/-- Before that, less has been waited. -/
theorem waitedAfter_lt (h : c.check = .ok ()) (hleft : i < c.pauses) :
    (c.waitedAfter i).nanos < c.acquireTimeout.nanos := by
  have htime := Nat.lt_of_not_le (mt (pauses_le_iff h).mpr (Nat.not_le.mpr hleft))
  rw [nanos_waitedAfter]
  omega

/-- What the pauses before leave of the time to wait is more than nothing, so no pause is empty. -/
theorem pauseBefore_pos (h : c.check = .ok ()) (hleft : i < c.pauses) :
    0 < (c.pauseBefore (i + 1)).nanos := by
  have hinterval := retryInterval_pos h
  have htime := waitedAfter_lt h hleft
  rw [nanos_waitedAfter] at htime
  rw [nanos_pauseBefore, Nat.add_sub_cancel]
  omega

end LockConfig

namespace Limiter

variable {c : LockConfig} {key token : String} {granted : Nat → Bool} {i : Nat}

/-- There is no pause when, and only when, the time to wait is used up. -/
theorem isZero_nextPause_iff (h : c.check = .ok ()) (waited : Duration) :
    (nextPause c waited).isZero = true ↔ c.acquireTimeout ≤ waited := by
  have hinterval := LockConfig.retryInterval_pos h
  rw [Duration.isZero_iff, nanos_nextPause, Duration.le_iff]
  omega

theorem nextPause_waitedAfter (c : LockConfig) (i : Nat) :
    nextPause c (c.waitedAfter i) = c.pauseBefore (i + 1) := by
  ext
  simp only [nanos_nextPause, LockConfig.nanos_waitedAfter, LockConfig.nanos_pauseBefore,
    Nat.add_sub_cancel]
  omega

/-- A pause comes after a try that is refused as long as the time to wait is not over. -/
theorem isZero_nextPause_waitedAfter_iff (h : c.check = .ok ()) :
    (nextPause c (c.waitedAfter i)).isZero = true ↔ c.pauses ≤ i := by
  rw [isZero_nextPause_iff h, LockConfig.pauses_le_iff h, Duration.le_iff,
    LockConfig.nanos_waitedAfter]
  omega

/-! ## The questions of a wait -/

/-- What has been asked so far, and how many tries for a lock were among it. -/
structure Wait where
  asked : List Ask
  tries : Nat

/-- Nothing has been asked. -/
def Wait.start : Wait := ⟨[], 0⟩

/-- A store that never fails: it has no values, and grants conditional writes as it is told, the
first one under number zero. -/
def grantAnswer (granted : Nat → Bool) (tries : Nat) : (call : StoreCall) →
    Except StoreFault call.Value
  | .get _ => .ok none
  | .set .. => .ok ()
  | .setIfAbsent .. => .ok (granted tries)
  | .deleteIfEqual .. => .ok false
  | .delete _ => .ok ()

/-- Is a question a try for a lock? -/
def Ask.isTry : Ask → Bool
  | .store (.setIfAbsent ..) => true
  | _ => false

/-- One more question has been asked. -/
def Wait.after (w : Wait) (ask : Ask) : Wait :=
  ⟨w.asked ++ [ask], if ask.isTry then w.tries + 1 else w.tries⟩

/-- Surroundings that grant tries as they are told. -/
def grant (granted : Nat → Bool) : (ask : interface.Request) → Wait → interface.Answer ask × Wait
  | .store call, w => (grantAnswer granted w.tries call, w.after (.store call))
  | .now, w => (0, w.after .now)
  | .pause length, w => ((), w.after (.pause length))
  | .note event, w => ((), w.after (.note event))

/-- The lengths of the pauses among some questions, in nanoseconds. -/
def pausesIn (asked : List Ask) : List Nat :=
  asked.filterMap fun
    | .pause length => some length.nanos
    | _ => none

/-- A try for a lock. -/
def tryFor (c : LockConfig) (key token : String) : Ask := .store (.setIfAbsent key token c.ttl)

/-- Tries that are not granted, each with the pause after it. -/
def waits (c : LockConfig) (key token : String) (tries : Nat) : List Ask :=
  (List.range tries).flatMap fun i => [tryFor c key token, .pause (c.pauseBefore (i + 1))]

/-- What has been asked when a try comes that is not the first. -/
def Wait.before (c : LockConfig) (key token : String) (i : Nat) : Wait :=
  ⟨waits c key token i, i⟩

theorem waits_succ (c : LockConfig) (key token : String) (i : Nat) :
    waits c key token (i + 1) =
      waits c key token i ++ [tryFor c key token, .pause (c.pauseBefore (i + 1))] := by
  rw [waits, List.range_succ, List.flatMap_append]
  rfl

theorem pausesIn_append (asked asked' : List Ask) :
    pausesIn (asked ++ asked') = pausesIn asked ++ pausesIn asked' :=
  List.filterMap_append

/-- The pauses of a wait are those of the timing, one after another. -/
theorem pausesIn_waits (c : LockConfig) (key token : String) (i : Nat) :
    pausesIn (waits c key token i) = (List.range' 1 i).map fun j => (c.pauseBefore j).nanos := by
  induction i with
  | zero => rfl
  | succ i ih =>
      rw [waits_succ, pausesIn_append, ih, List.range'_1_concat, List.map_append, Nat.add_comm 1 i]
      rfl

/-- Together the pauses last as long as has been waited. -/
theorem sum_pausesIn_waits (c : LockConfig) (key token : String) (i : Nat) :
    (pausesIn (waits c key token i)).sum = (c.waitedAfter i).nanos := by
  induction i with
  | zero => simp [waits, pausesIn]
  | succ i ih =>
      rw [waits_succ, pausesIn_append, List.sum_append, ih, LockConfig.nanos_waitedAfter_succ]
      rfl

/-! ## Try by try -/

/-- A wait that ends with a try and a report on it. -/
def Wait.ended (c : LockConfig) (key token : String) (i : Nat) (event : LimiterEvent) : Wait :=
  ⟨waits c key token i ++ [tryFor c key token, .note event], i + 1⟩

theorem run_tryFor (c : LockConfig) (key token : String) (granted : Nat → Bool) (i : Nat) :
    (store (.setIfAbsent key token c.ttl)).run (grant granted) (.before c key token i) =
      (.ok (granted i), ⟨waits c key token i ++ [tryFor c key token], i + 1⟩) := rfl

/-- A report after a try ends the wait. -/
theorem after_note (c : LockConfig) (key token : String) (i : Nat) (event : LimiterEvent) :
    Wait.after ⟨waits c key token i ++ [tryFor c key token], i + 1⟩ (.note event) =
      .ended c key token i event := by
  rw [Wait.after, Wait.ended, List.append_assoc]
  rfl

/-- The pause of the timing after a try completes what comes before the next one. -/
theorem after_pause (c : LockConfig) (key token : String) (i : Nat) :
    Wait.after ⟨waits c key token i ++ [tryFor c key token], i + 1⟩
      (.pause (c.pauseBefore (i + 1))) = .before c key token (i + 1) := by
  rw [Wait.after, Wait.before, waits_succ, List.append_assoc]
  rfl

/-- A try that is granted ends the wait. -/
theorem run_acquireFrom_of_granted (hgranted : granted i = true) (waited : Duration) :
    (acquireFrom c key token waited).run (grant granted) (.before c key token i) =
      (.ok ⟨key, token⟩, .ended c key token i (.lockAcquired key)) := by
  rw [acquireFrom, Routine.bind_eq, Routine.run_bind, run_tryFor, hgranted, ← after_note]
  rfl

/-- A try that is refused while there is time left is followed by a pause and another try. -/
theorem run_acquireFrom_of_left (h : c.check = .ok ()) (hrefused : granted i = false)
    (hleft : i < c.pauses) :
    (acquireFrom c key token (c.waitedAfter i)).run (grant granted) (.before c key token i) =
      (acquireFrom c key token (c.waitedAfter (i + 1))).run (grant granted)
        (.before c key token (i + 1)) := by
  have hpause := mt (isZero_nextPause_waitedAfter_iff h).mp (Nat.not_le.mpr hleft)
  rw [nextPause_waitedAfter] at hpause
  rw [acquireFrom, Routine.bind_eq, Routine.run_bind, run_tryFor, hrefused]
  simp only [nextPause_waitedAfter, ← LockConfig.waitedAfter_succ, if_neg hpause]
  rw [← after_pause]
  rfl

/-- A try that is refused when the time to wait is over is the last one. -/
theorem run_acquireFrom_of_over (h : c.check = .ok ()) (hrefused : granted i = false)
    (hover : c.pauses ≤ i) :
    (acquireFrom c key token (c.waitedAfter i)).run (grant granted) (.before c key token i) =
      (.error (.lockTimedOut key c.acquireTimeout),
        .ended c key token i (.lockTimedOut key c.acquireTimeout)) := by
  have hpause := (isZero_nextPause_waitedAfter_iff h).mpr hover
  rw [acquireFrom, Routine.bind_eq, Routine.run_bind, run_tryFor, hrefused]
  simp only [if_pos hpause]
  rw [LockConfig.waitedAfter_of_le h hover, ← after_note]
  rfl

/-- How a wait ends whose last try is this one. -/
def verdict (c : LockConfig) (key token : String) (granted : Bool) : Except LimitError Guard :=
  if granted then .ok ⟨key, token⟩ else .error (.lockTimedOut key c.acquireTimeout)

/-- The report on such a wait. -/
def lastReport (c : LockConfig) (key : String) (granted : Bool) : LimiterEvent :=
  if granted then .lockAcquired key else .lockTimedOut key c.acquireTimeout

/-- From any try on, a lock is waited for up to the first try that is granted, or to the one after
the time to wait. -/
theorem exists_run_acquireFrom (h : c.check = .ok ()) (key token : String) (granted : Nat → Bool)
    {i : Nat} (hi : i ≤ c.pauses) :
    ∃ k, (i ≤ k ∧ k ≤ c.pauses) ∧ (∀ j, i ≤ j → j < k → granted j = false) ∧
      (k < c.pauses → granted k = true) ∧
      (acquireFrom c key token (c.waitedAfter i)).run (grant granted) (.before c key token i) =
        (verdict c key token (granted k),
          .ended c key token k (lastReport c key (granted k))) := by
  cases hgranted : granted i with
  | true =>
      refine ⟨i, ⟨Nat.le_refl i, hi⟩, fun j hj hji => absurd hji (Nat.not_lt.mpr hj),
        fun _ => hgranted, ?_⟩
      rw [hgranted]
      exact run_acquireFrom_of_granted hgranted _
  | false =>
      by_cases hleft : i < c.pauses
      · obtain ⟨k, ⟨hlow, hhigh⟩, hrefused, hstop, hrun⟩ :=
          exists_run_acquireFrom h key token granted hleft
        refine ⟨k, ⟨Nat.le_of_succ_le hlow, hhigh⟩, fun j hj hjk => ?_, hstop, ?_⟩
        · rcases Nat.eq_or_lt_of_le hj with rfl | hlater
          · exact hgranted
          · exact hrefused j hlater hjk
        · rw [run_acquireFrom_of_left h hgranted hleft, hrun]
      · refine ⟨i, ⟨Nat.le_refl i, hi⟩, fun j hj hji => absurd hji (Nat.not_lt.mpr hj),
          fun hmore => absurd hmore hleft, ?_⟩
        rw [hgranted]
        exact run_acquireFrom_of_over h hgranted (Nat.not_lt.mp hleft)
termination_by c.pauses - i

/-- Waiting for a lock, against any script.  The tries follow one another up to the first one that
is granted, or to the one after as many pauses as the time to wait holds, the last of them perhaps
cut off.  The owner gets the lock by the last try, if that one is granted; otherwise the wait fails
after the time to wait.  Nothing but a report comes after the last try.  Whenever a pause begins,
those before have used less than the time to wait; it is not empty, and lasts for the retry interval
or what is left of that time.  Together the pauses never last longer than that time, and just as
long if the lock is not granted. -/
theorem acquire_spends_time_to_wait (c : LockConfig) (h : c.check = .ok ()) (key token : String)
    (granted : Nat → Bool) :
    ∃ k ≤ c.acquireTimeout.nanos ⌈/⌉ c.retryInterval.nanos,
      (∀ i < k, granted i = false) ∧
      (granted k = false → k = c.acquireTimeout.nanos ⌈/⌉ c.retryInterval.nanos) ∧
      (acquire c key token).run (grant granted) .start =
        (if granted k then .ok ⟨key, token⟩ else .error (.lockTimedOut key c.acquireTimeout),
          ⟨waits c key token k ++ [tryFor c key token,
            .note (if granted k then .lockAcquired key else .lockTimedOut key c.acquireTimeout)],
            k + 1⟩) ∧
      pausesIn (waits c key token k) =
        (List.range' 1 k).map (fun i => min c.retryInterval.nanos
          (c.acquireTimeout.nanos - (i - 1) * c.retryInterval.nanos)) ∧
      (∀ i < k, (pausesIn (waits c key token i)).sum < c.acquireTimeout.nanos ∧
        0 < (c.pauseBefore (i + 1)).nanos) ∧
      (pausesIn (waits c key token k)).sum =
        min (k * c.retryInterval.nanos) c.acquireTimeout.nanos ∧
      (granted k = false → (pausesIn (waits c key token k)).sum = c.acquireTimeout.nanos) := by
  have hstart : (acquire c key token).run (grant granted) .start =
      (acquireFrom c key token (c.waitedAfter 0)).run (grant granted) (.before c key token 0) := by
    rw [LockConfig.waitedAfter_zero]
    rfl
  obtain ⟨k, ⟨-, hlast⟩, hrefused, hstop, hrun⟩ :=
    exists_run_acquireFrom h key token granted (Nat.zero_le c.pauses)
  have hover : granted k = false → k = c.pauses := fun hno =>
    Nat.le_antisymm hlast (Nat.not_lt.mp fun hless => by cases hno.symm.trans (hstop hless))
  have hsum := sum_pausesIn_waits c key token k
  refine ⟨k, hlast, fun i hi => hrefused i (Nat.zero_le i) hi, hover, hstart.trans hrun, ?_, ?_,
    hsum.trans (LockConfig.nanos_waitedAfter c k), fun hno => ?_⟩
  · rw [pausesIn_waits]
    simp only [LockConfig.nanos_pauseBefore]
  · intro i hi
    have hleft : i < c.pauses := Nat.lt_of_lt_of_le hi hlast
    refine ⟨?_, LockConfig.pauseBefore_pos h hleft⟩
    rw [sum_pausesIn_waits]
    exact LockConfig.waitedAfter_lt h hleft
  · rw [hsum, LockConfig.waitedAfter_of_le h (hover hno).ge]

/-- A lock that is never free, waited for two pauses and a half. -/
theorem acquire_spends_time_to_wait_of_never :
    let c : LockConfig := ⟨.ofSecs 2, .ofMillis 25, .ofMillis 10⟩
    let try' : Ask := .store (.setIfAbsent "lock" "owner" (.ofSecs 2))
    c.check = .ok () ∧
      (acquire c "lock" "owner").run (grant fun _ => false) .start =
        (.error (.lockTimedOut "lock" (.ofMillis 25)),
          ⟨[try', .pause (.ofMillis 10), try', .pause (.ofMillis 10), try', .pause (.ofMillis 5),
            try', .note (.lockTimedOut "lock" (.ofMillis 25))], 4⟩) := by
  intro c try'
  have hvalid : c.check = .ok () := rfl
  obtain ⟨k, -, -, hover, hrun, -⟩ :=
    acquire_spends_time_to_wait c hvalid "lock" "owner" fun _ => false
  have hthree : k = 3 := (hover rfl).trans (by decide)
  have hpauses : c.pauseBefore 1 = .ofMillis 10 ∧ c.pauseBefore 2 = .ofMillis 10 ∧
      c.pauseBefore 3 = .ofMillis 5 := by decide
  have hwaits : waits c "lock" "owner" 3 = [try', .pause (c.pauseBefore 1), try',
      .pause (c.pauseBefore 2), try', .pause (c.pauseBefore 3)] := rfl
  rw [hthree, hwaits, hpauses.1, hpauses.2.1, hpauses.2.2] at hrun
  exact ⟨hvalid, hrun⟩

end Limiter

end FlowControl
