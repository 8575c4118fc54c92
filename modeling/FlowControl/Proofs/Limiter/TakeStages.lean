import FlowControl.Proofs.Limiter.LockSafety
import FlowControl.Proofs.Limiter.Visits

/-!
# A take over a store that may fail

A take may fail at every call of the store, and goes on in the same way whatever the fault is.
Outside the lock and at its clock, load and save a fault settles the result; then a take that has
the lock still gives it back, and what that is answered changes nothing.  While a take is inside
it holds the guard of its lock at every question, from the answer to its try to the answer to its
delete; outside it holds nothing.

`Proceeds` says which questions a take asks in which stage, for all answers; `Advances` says what
one answered question is for a take.
-/

namespace FlowControl

open Limiter

/-- What a take came to: an error, with nothing stored, or a state that it loaded, refilled up to
a reading of its clock, and stored. -/
inductive TakeOutcome where
  | failed (error : LimitError)
  | stored (now : UInt64) (state : Option TokenState)

/-- How far a take has come: it does not have the lock, it has read nothing, it has read the clock,
it has loaded a state, it has yet to give the lock back, or it has nothing more to do. -/
inductive TakeStage where
  | outside
  | entered
  | clocked (now : UInt64)
  | loaded (now : UInt64) (state : Option TokenState)
  | owing (outcome : TakeOutcome)
  | finished (outcome : TakeOutcome)

/-- The stage after the state was read; a text that is no state settles the result. -/
def TakeStage.ofLoad (now : UInt64) : Except LimitError (Option TokenState) → TakeStage
  | .ok state => .loaded now state
  | .error error => .owing (.failed error)

namespace Bucket

variable {b : Bucket} {token : String} {n now r : UInt64} {state : Option TokenState}
  {outcome : TakeOutcome} {stage stage' : TakeStage} {m : Memory} {ask : Ask} {held : List Guard}
  {resume : ask.Answer → Program (Except LimitError Unit)}

/-- The result of a take by what it came to. -/
def resultOf (b : Bucket) (n : UInt64) : TakeOutcome → Except LimitError Unit
  | .failed error => .error error
  | .stored now state => b.verdict (b.refilled state now) n

/-- The guard of the bucket's lock under a token. -/
abbrev guardOf (b : Bucket) (token : String) : Guard := ⟨b.key.lockKey, token⟩

/-- A load of the state of a bucket. -/
abbrev stateLoad (b : Bucket) : Ask := .store (.get b.key.stateKey)

/-- A save of a state of a bucket. -/
abbrev stateSave (b : Bucket) (s : TokenState) : Ask :=
  .store (.set b.key.stateKey s.encode b.config.stateTtl)

/-- A release of the lock of a bucket. -/
abbrev lockRelease (b : Bucket) (token : String) : Ask :=
  .store (.deleteIfEqual b.key.lockKey token)

/-- What a take holds in a stage. -/
def heldIn (b : Bucket) (token : String) : TakeStage → List Guard
  | .outside | .finished _ => []
  | .entered | .clocked _ | .loaded .. | .owing _ => [b.guardOf token]

/-- Does a program ask as a take in some stage does? -/
def Proceeds (b : Bucket) (token : String) (n : UInt64) :
    TakeStage → Program (Except LimitError Unit) → Prop
  | stage, .ask (.note _) held resume =>
    held = b.heldIn token stage ∧ b.Proceeds token n stage (resume ())
  | .outside, .done result => ∃ error, result = .error error ∧ error.isBackendFailure = true
  | .outside, .ask (.pause _) held resume => held = [] ∧ b.Proceeds token n .outside (resume ())
  | .outside, .ask (.store (.setIfAbsent key value ttl)) held resume =>
    (held = [] ∧ key = b.key.lockKey ∧ value = token ∧ ttl = b.config.lock.ttl) ∧
      b.Proceeds token n .entered (resume (.ok true)) ∧
      b.Proceeds token n .outside (resume (.ok false)) ∧
      ∀ fault, b.Proceeds token n (.finished (.failed (.backend fault))) (resume (.error fault))
  | .entered, .ask .now held resume =>
    held = [b.guardOf token] ∧ ∀ now, b.Proceeds token n (.clocked now) (resume now)
  | .clocked now, .ask (.store (.get key)) held resume =>
    (held = [b.guardOf token] ∧ key = b.key.stateKey) ∧
      (∀ text, b.Proceeds token n (.ofLoad now (b.reads text)) (resume (.ok text))) ∧
      ∀ fault, b.Proceeds token n (.owing (.failed (.backend fault))) (resume (.error fault))
  | .loaded now state, .ask (.store (.set key text ttl)) held resume =>
    (held = [b.guardOf token] ∧ key = b.key.stateKey ∧
        text = (leftOf (b.refilled state now) n).encode ∧ ttl = b.config.stateTtl) ∧
      b.Proceeds token n (.owing (.stored now state)) (resume (.ok ())) ∧
      ∀ fault, b.Proceeds token n (.owing (.failed (.backend fault))) (resume (.error fault))
  | .owing outcome, .ask (.store (.deleteIfEqual key value)) held resume =>
    (held = [b.guardOf token] ∧ key = b.key.lockKey ∧ value = token) ∧
      ∀ answer, b.Proceeds token n (.finished outcome) (resume answer)
  | .finished outcome, .done result => result = b.resultOf n outcome
  | _, _ => False

/-! ## A take proceeds -/

theorem proceeds_reported (outcome : TakeOutcome) :
    b.Proceeds token n (.finished outcome) (b.reported (b.resultOf n outcome)) := by
  generalize hresult : b.resultOf n outcome = result
  unfold reported
  split
  · split
    · exact ⟨rfl, hresult.symm⟩
    · exact hresult.symm
  · exact hresult.symm

theorem proceeds_handedBack (outcome : TakeOutcome) (released : Except StoreFault Unit) :
    b.Proceeds token n (.finished outcome) (b.handedBack (b.resultOf n outcome) released) := by
  rcases released with fault | _
  · exact ⟨rfl, proceeds_reported outcome⟩
  · exact proceeds_reported outcome

theorem proceeds_release (outcome : TakeOutcome) :
    b.Proceeds token n (.owing outcome)
      ((release (b.guardOf token)).bind (b.handedBack (b.resultOf n outcome))) := by
  refine ⟨⟨rfl, rfl, rfl⟩, ?_⟩
  rintro (fault | _ | _)
  · exact proceeds_handedBack outcome (.error fault)
  · exact ⟨rfl, proceeds_handedBack outcome (.ok ())⟩
  · exact proceeds_handedBack outcome (.ok ())

theorem proceeds_charge (now : UInt64) (state : Option TokenState) :
    b.Proceeds token n (.loaded now state)
      (((b.charge n (b.refilled state now)).holding (b.guardOf token)).bind fun result =>
        (release (b.guardOf token)).bind (b.handedBack result)) := by
  have hstored : b.Proceeds token n (.owing (.stored now state)) _ := proceeds_release _
  unfold charge
  by_cases henough : n ≤ (b.refilled state now).tokens
  · simp only [resultOf, verdict, if_pos henough] at hstored
    rw [if_pos henough]
    refine ⟨⟨rfl, rfl, ?_, rfl⟩, hstored, fun fault => proceeds_release _⟩
    rw [leftOf, if_pos henough]
  · simp only [resultOf, verdict, if_neg henough] at hstored
    rw [if_neg henough]
    refine ⟨⟨rfl, rfl, ?_, rfl⟩, ⟨rfl, hstored⟩, fun fault => proceeds_release _⟩
    rw [leftOf, if_neg henough]

theorem proceeds_load (now : UInt64) (read : Except LimitError (Option TokenState)) :
    b.Proceeds token n (.ofLoad now read)
      (((match read with
        | .error error => .done (.error error)
        | .ok state => b.charge n (b.refilled state now) :
          Program (Except LimitError Unit)).holding (b.guardOf token)).bind
        fun result => (release (b.guardOf token)).bind (b.handedBack result)) := by
  cases read with
  | ok state => exact proceeds_charge now state
  | error error => exact proceeds_release (.failed error)

theorem proceeds_entered (b : Bucket) (token : String) (n : UInt64) :
    b.Proceeds token n .entered (b.entered token n) := by
  unfold entered afterTries
  rw [takeLocked_eq, load_eq]
  exact ⟨rfl, rfl, fun now => ⟨⟨rfl, rfl⟩, fun text => proceeds_load now (b.reads text),
    fun fault => proceeds_release (.failed (.backend fault))⟩⟩

/-- A take proceeds from each of its tries. -/
theorem proceeds_tries (b : Bucket) (token : String) (n : UInt64) (waited : Duration) :
    b.Proceeds token n .outside
      ((acquireFrom b.config.lock b.key.lockKey token waited).bind (b.afterTries n)) := by
  rw [acquireFrom]
  refine ⟨⟨rfl, rfl, rfl, rfl⟩, proceeds_entered b token n, ?_, fun fault => rfl⟩
  show b.Proceeds token n .outside (Routine.bind (if _ then _ else _) _)
  split
  · exact ⟨rfl, _, rfl, rfl⟩
  · exact ⟨rfl, proceeds_tries b token n _⟩
termination_by b.config.lock.acquireTimeout.nanos - waited.nanos
decreasing_by exact nextPause_decreases (by assumption)

theorem proceeds_take (b : Bucket) (token : String) (n : UInt64) :
    b.Proceeds token n .outside (b.take token n) := by
  rw [take_eq]
  exact proceeds_tries b token n .zero

/-! ## Questions of a take -/

/-- Questions of a take. -/
def TakeAsk (b : Bucket) (token : String) (ask : Ask) : Prop :=
  HolderAsk b token ask ∨ ask = b.lockTry token ∨ ∃ length, ask = .pause length

theorem asks_takeAsk (b : Bucket) (token : String) (n : UInt64) :
    (b.take token n).Asks fun ask _ => TakeAsk b token ask := by
  rw [take_eq]
  have htries : (acquireFrom b.config.lock b.key.lockKey token .zero).Asks fun ask _ =>
      TakeAsk b token ask :=
    asks_acquireFrom_of (.inr (.inl rfl)) (fun length => .inr (.inr ⟨length, rfl⟩))
      (.inl trivial) (fun _ => .inl trivial) .zero
  refine htries.bind (yields_acquireFrom _ _ token .zero) ?_
  rintro (error | guard) hguard
  · trivial
  · rw [hguard guard rfl]
    exact (asks_of_inside ((inside_entered b token n).2 ()).1).weaken fun _ _ h => .inl h

/-! ## What an answer is for a take -/

/-- What a moment of a party is for its take: from which stage to which it leads. -/
inductive Advances {ι : Type} (b : Bucket) (token : String) (n : UInt64) (e : Moment ι) :
    TakeStage → TakeStage → Prop where
  | notes {event : LimiterEvent} (hask : e.ask = .note event) (stage : TakeStage) :
      Advances b token n e stage stage
  | pauses {length : Duration} (hask : e.ask = .pause length) :
      Advances b token n e .outside .outside
  | waits (hask : e.ask = b.lockTry token) (hgrant : e.grant? = none) :
      Advances b token n e .outside .outside
  | enters (hask : e.ask = b.lockTry token) (hgrant : e.grant? = some (b.guardOf token)) :
      Advances b token n e .outside .entered
  | misses (hask : e.ask = b.lockTry token) (hdown : e.before.unavailable = true) :
      Advances b token n e .outside (.finished (.failed (.backend Memory.outage)))
  | clocks (hask : e.ask = .now) : Advances b token n e .entered (.clocked e.reading)
  | loads (hask : e.ask = b.stateLoad) (hup : e.before.unavailable = false)
      (now : UInt64) :
      Advances b token n e (.clocked now)
        (.ofLoad now (b.reads (e.before.live? b.key.stateKey e.reading)))
  | loadFails (hask : e.ask = b.stateLoad) (hdown : e.before.unavailable = true)
      (now : UInt64) :
      Advances b token n e (.clocked now) (.owing (.failed (.backend Memory.outage)))
  | saves (now : UInt64) (state : Option TokenState)
      (hask : e.ask = b.stateSave (leftOf (b.refilled state now) n))
      (hup : e.before.unavailable = false) :
      Advances b token n e (.loaded now state) (.owing (.stored now state))
  | saveFails (now : UInt64) (state : Option TokenState)
      (hask : e.ask = b.stateSave (leftOf (b.refilled state now) n))
      (hdown : e.before.unavailable = true) :
      Advances b token n e (.loaded now state) (.owing (.failed (.backend Memory.outage)))
  | releases (hask : e.ask = b.lockRelease token) (outcome : TakeOutcome) :
      Advances b token n e (.owing outcome) (.finished outcome)

variable {ι : Type} {key value text : String} {ttl : Duration}

/-- A try gets the lock, is refused, or fails with the store. -/
theorem Proceeds.advances_try {resume : Except StoreFault Bool → Program (Except LimitError Unit)}
    (h : b.Proceeds token n .outside (.ask (.store (.setIfAbsent key value ttl)) held resume))
    (i : ι) (r : UInt64) (m : Memory) :
    ∃ stage', Advances b token n (Moment.of (some i) r (.store (.setIfAbsent key value ttl)) m)
        .outside stage' ∧
      b.Proceeds token n stage'
        (resume (answerAt Memory.call r (.store (.setIfAbsent key value ttl)) m).1) := by
  obtain ⟨⟨-, rfl, rfl, rfl⟩, hentered, hagain, hfault⟩ := h
  cases hdown : m.unavailable with
  | true =>
      have hcall : answerAt Memory.call r (b.lockTry value) m = (.error Memory.outage, m) :=
        Memory.call_of_outage hdown r _
      rw [hcall]
      exact ⟨_, .misses rfl hdown, hfault _⟩
  | false =>
      cases hlive : m.live? b.key.lockKey r with
      | some other =>
          have hcall : answerAt Memory.call r (b.lockTry value) m =
              (.ok false, m.purge b.key.lockKey r) := answerAt_try_of_live hdown hlive
          refine ⟨_, .waits rfl ?_, by rw [hcall]; exact hagain⟩
          exact congrArg (granted? (b.lockTry value)) (congrArg Prod.fst hcall)
      | none =>
          have hcall : answerAt Memory.call r (b.lockTry value) m =
              (.ok true, m.put b.key.lockKey ⟨value, Memory.expiry r b.config.lock.ttl⟩) :=
            answerAt_try_of_free hdown hlive
          refine ⟨_, .enters rfl ?_, by rw [hcall]; exact hentered⟩
          exact congrArg (granted? (b.lockTry value)) (congrArg Prod.fst hcall)

/-- A load reads what is stored, or fails with the store. -/
theorem Proceeds.advances_load
    {resume : Except StoreFault (Option String) → Program (Except LimitError Unit)}
    (h : b.Proceeds token n (.clocked now) (.ask (.store (.get key)) held resume)) (i : ι)
    (r : UInt64) (m : Memory) :
    ∃ stage', Advances b token n (Moment.of (some i) r (.store (.get key)) m)
        (.clocked now) stage' ∧
      b.Proceeds token n stage' (resume (answerAt Memory.call r (.store (.get key)) m).1) := by
  obtain ⟨⟨-, rfl⟩, hread, hfault⟩ := h
  cases hdown : m.unavailable with
  | true =>
      have hcall : answerAt Memory.call r (.store (.get b.key.stateKey)) m =
          (.error Memory.outage, m) := Memory.call_of_outage hdown r _
      rw [hcall]
      exact ⟨_, .loadFails rfl hdown now, hfault _⟩
  | false =>
      have hcall : answerAt Memory.call r (.store (.get b.key.stateKey)) m =
          (.ok (m.live? b.key.stateKey r), m.purge b.key.stateKey r) :=
        Memory.call_of_available hdown r _
      rw [hcall]
      exact ⟨_, .loads rfl hdown now, hread _⟩

/-- A save stores what is left of the refilled state, or fails with the store. -/
theorem Proceeds.advances_save {resume : Except StoreFault Unit → Program (Except LimitError Unit)}
    (h : b.Proceeds token n (.loaded now state) (.ask (.store (.set key text ttl)) held resume))
    (i : ι) (r : UInt64) (m : Memory) :
    ∃ stage', Advances b token n (Moment.of (some i) r (.store (.set key text ttl)) m)
        (.loaded now state) stage' ∧
      b.Proceeds token n stage'
        (resume (answerAt Memory.call r (.store (.set key text ttl)) m).1) := by
  obtain ⟨⟨-, rfl, rfl, rfl⟩, hsaved, hfault⟩ := h
  let left := leftOf (b.refilled state now) n
  cases hdown : m.unavailable with
  | true =>
      have hcall : answerAt Memory.call r (b.stateSave left) m = (.error Memory.outage, m) :=
        Memory.call_of_outage hdown r _
      rw [hcall]
      exact ⟨_, .saveFails now state rfl hdown, hfault _⟩
  | false =>
      have hcall : answerAt Memory.call r (b.stateSave left) m =
          (.ok (), (m.answer r (.set b.key.stateKey left.encode b.config.stateTtl)).2) :=
        Memory.call_of_available hdown r _
      rw [hcall]
      exact ⟨_, .saves now state rfl hdown, hsaved⟩

/-- A take that has nothing more to do has its result, whatever its reports are answered. -/
theorem Proceeds.yields {p : Program (Except LimitError Unit)}
    (h : b.Proceeds token n (.finished outcome) p) : p.Yields (· = b.resultOf n outcome) := by
  induction p with
  | done result => exact h
  | ask ask held resume ih =>
      cases ask with
      | note event => exact fun _ => ih () h.2
      | store c => cases c <;> exact h.elim
      | _ => exact h.elim

/-- What a take holds while it waits is what its stage says. -/
theorem Proceeds.held_eq (h : b.Proceeds token n stage (.ask ask held resume)) :
    held = b.heldIn token stage := by
  cases ask with
  | note event => exact h.1
  | now =>
      cases stage with
      | entered => exact h.1
      | _ => exact h.elim
  | pause length =>
      cases stage with
      | outside => exact h.1
      | _ => exact h.elim
  | store c =>
      cases stage with
      | outside =>
          cases c with
          | setIfAbsent key value ttl => exact h.1.1
          | _ => exact h.elim
      | clocked now =>
          cases c with
          | get key => exact h.1.1
          | _ => exact h.elim
      | loaded now state =>
          cases c with
          | set key text ttl => exact h.1.1
          | _ => exact h.elim
      | owing outcome =>
          cases c with
          | deleteIfEqual key value => exact h.1.1
          | _ => exact h.elim
      | _ => cases c <;> exact h.elim

/-- A take that is answered advances. -/
theorem Proceeds.advances (h : b.Proceeds token n stage (.ask ask held resume)) (i : ι)
    (r : UInt64) (m : Memory) :
    ∃ stage', Advances b token n (Moment.of (some i) r ask m) stage stage' ∧
      b.Proceeds token n stage' (resume (answerAt Memory.call r ask m).1) := by
  cases ask with
  | note event => exact ⟨stage, .notes rfl stage, h.2⟩
  | now =>
      cases stage with
      | entered => exact ⟨_, .clocks rfl, h.2 r⟩
      | _ => exact h.elim
  | pause length =>
      cases stage with
      | outside => exact ⟨_, .pauses rfl, h.2⟩
      | _ => exact h.elim
  | store c =>
      cases stage with
      | outside =>
          cases c with
          | setIfAbsent key value ttl => exact h.advances_try i r m
          | _ => exact h.elim
      | clocked now =>
          cases c with
          | get key => exact h.advances_load i r m
          | _ => exact h.elim
      | loaded now state =>
          cases c with
          | set key text ttl => exact h.advances_save i r m
          | _ => exact h.elim
      | owing outcome =>
          cases c with
          | deleteIfEqual key value =>
              obtain ⟨⟨-, rfl, rfl⟩, hnext⟩ := h
              exact ⟨_, .releases rfl outcome, hnext _⟩
          | _ => exact h.elim
      | _ => cases c <;> exact h.elim

end Bucket

end FlowControl
