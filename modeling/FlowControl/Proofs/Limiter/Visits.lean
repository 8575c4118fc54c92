import FlowControl.Proofs.Limiter.InTurn
import FlowControl.Proofs.Limiter.LockHistory
import FlowControl.Proofs.Limiter.TakeProgram

/-!
# What a use of a bucket reads and stores

A take gets the lock, reads the clock, then the state, and stores what it leaves of the
refilled state.  A reset reads the clock, stores a full state and deletes the lock,
whoever has it.  `Visits` says which questions a use asks in which stage, as long as the
store answers; `Moves` says what one answered question is for a use and the state.

The stages say nothing about other uses: what a take has read may be out of date by the
time it stores.
-/

namespace FlowControl

open Limiter

/-- What a bucket is used for. -/
inductive Use where
  | take (token : String) (n : UInt64)
  | reset
  deriving DecidableEq, Repr

/-- How far a use has come: it does not have the lock, it has read nothing, it has read the clock,
it knows what it stores, or its result is settled. -/
inductive VisitStage where
  | outside
  | entered
  | clocked (now : UInt64)
  | loaded (now : UInt64) (state : Option TokenState)
  | settled (result : Except LimitError Unit)

/-- The stage in which a use begins. -/
def Use.first : Use → VisitStage
  | .take .. => .outside
  | .reset => .entered

/-- The stage after the clock was read; a reset does not read the state. -/
def Use.clocked (now : UInt64) : Use → VisitStage
  | .take .. => .clocked now
  | .reset => .loaded now none

/-- The stage after the state was read; a text that is no state settles the result. -/
def VisitStage.ofRead (now : UInt64) : Except LimitError (Option TokenState) → VisitStage
  | .ok state => .loaded now state
  | .error error => .settled (.error error)

namespace Bucket

variable {b : Bucket} {u : Use} {token : String} {n now r : UInt64} {state : Option TokenState}
  {result : Except LimitError Unit} {stage stage' : VisitStage} {m : Memory} {ask : Ask}
  {held : List Guard} {resume : ask.Answer → Program (Except LimitError Unit)}

/-- The program of a use. -/
def use (b : Bucket) : Use → Program (Except LimitError Unit)
  | .take token n => b.take token n
  | .reset => b.reset

/-- The state that a stored text stands for. -/
def reads (b : Bucket) : Option String → Except LimitError (Option TokenState)
  | none => .ok none
  | some text =>
    match TokenState.parse text with
    | .ok state => .ok (some state)
    | .error fault => .error (.backend (.corrupt b.key.stateKey fault.message))

/-- The result of a use that has read the clock and a state, and what it stores. -/
def settle (b : Bucket) (now : UInt64) (state : Option TokenState) :
    Use → Except LimitError Unit × TokenState
  | .take _ n => (b.verdict (b.refilled state now) n, leftOf (b.refilled state now) n)
  | .reset => (.ok (), .full b.config.capacity now)

/-- Does a program ask as a use in some stage does? -/
def Visits (b : Bucket) (u : Use) : VisitStage → Program (Except LimitError Unit) → Prop
  | .outside, p => ∃ token n, u = .take token n ∧ Outside b token (b.entered token n) p
  | .entered, .ask (.note _) _ resume => b.Visits u .entered (resume ())
  | .entered, .ask .now _ resume => ∀ now, b.Visits u (u.clocked now) (resume now)
  | .clocked now, .ask (.store (.get key)) _ resume =>
    (key = b.key.stateKey ∧ u ≠ .reset) ∧
      ∀ text, b.Visits u (.ofRead now (b.reads text)) (resume (.ok text))
  | .loaded now state, .ask (.store (.set key text ttl)) _ resume =>
    (key = b.key.stateKey ∧ text = (b.settle now state u).2.encode ∧ ttl = b.config.stateTtl) ∧
      b.Visits u (.settled (b.settle now state u).1) (resume (.ok ()))
  | .settled result, .ask (.note _) _ resume => b.Visits u (.settled result) (resume ())
  | .settled result, .ask (.store (.deleteIfEqual key value)) _ resume =>
    (key = b.key.lockKey ∧ ∃ n, u = .take value n) ∧
      ∀ deleted, b.Visits u (.settled result) (resume (.ok deleted))
  | .settled result, .ask (.store (.delete key)) _ resume =>
    (key = b.key.lockKey ∧ u = .reset) ∧ b.Visits u (.settled result) (resume (.ok ()))
  | .settled result, .done value => value = result
  | _, _ => False

/-! ## Takes and resets are uses -/

theorem visits_reported (result : Except LimitError Unit) :
    b.Visits (.take token n) (.settled result) (b.reported result) := by
  unfold reported
  split
  · split
    · rfl
    · rfl
  · rfl

theorem visits_release (b : Bucket) (token : String) (n : UInt64)
    (result : Except LimitError Unit) :
    b.Visits (.take token n) (.settled result)
      ((release ⟨b.key.lockKey, token⟩).bind (b.handedBack result)) := by
  refine ⟨⟨rfl, n, rfl⟩, ?_⟩
  -- Whether the lock was still its own makes no difference to the result.
  rintro (_ | _)
  · exact visits_reported result
  · exact visits_reported result

theorem visits_charge (b : Bucket) (token : String) (n now : UInt64)
    (state : Option TokenState) :
    b.Visits (.take token n) (.loaded now state)
      (((b.charge n (b.refilled state now)).holding (Guard.mk b.key.lockKey token)).bind
        fun result => (release ⟨b.key.lockKey, token⟩).bind (b.handedBack result)) := by
  unfold charge
  by_cases henough : n ≤ (b.refilled state now).tokens
  · rw [if_pos henough]
    refine ⟨⟨rfl, ?_, rfl⟩, ?_⟩
    · simp only [settle, leftOf, if_pos henough]
    · simp only [settle, verdict, if_pos henough]
      exact visits_release b token n (.ok ())
  · rw [if_neg henough]
    refine ⟨⟨rfl, ?_, rfl⟩, ?_⟩
    · simp only [settle, leftOf, if_neg henough]
    · simp only [settle, verdict, if_neg henough]
      exact visits_release b token n (.error (.exceeded b.config.interval))

theorem load_eq (b : Bucket) :
    b.load = (store (.get b.key.stateKey)).bind fun
      | .error fault => .done (.error (.backend fault))
      | .ok text => .done (b.reads text) := by
  refine congrArg (Routine.bind (store (.get b.key.stateKey))) (funext ?_)
  rintro (fault | _ | text)
  · rfl
  · rfl
  · dsimp only [reads]
    cases TokenState.parse text with
    | ok state => rfl
    | error fault => rfl

/-- A take goes on with what it has read, or ends with the error. -/
theorem visits_ofRead (b : Bucket) (token : String) (n now : UInt64)
    (read : Except LimitError (Option TokenState)) :
    b.Visits (.take token n) (.ofRead now read)
      (((match read with
        | .error error => .done (.error error)
        | .ok state => b.charge n (b.refilled state now) :
          Program (Except LimitError Unit)).holding (Guard.mk b.key.lockKey token)).bind
        fun result => (release ⟨b.key.lockKey, token⟩).bind (b.handedBack result)) := by
  cases read with
  | ok state => exact visits_charge b token n now state
  | error error => exact visits_release b token n (.error error)

/-- A take that has the lock reads the clock, then the state. -/
theorem visits_entered (b : Bucket) (token : String) (n : UInt64) :
    b.Visits (.take token n) .entered (b.entered token n) := by
  unfold entered afterTries
  rw [takeLocked_eq, load_eq]
  exact fun now => ⟨⟨rfl, nofun⟩, fun text => visits_ofRead b token n now (b.reads text)⟩

theorem visits_outside {p : Program (Except LimitError Unit)} :
    b.Visits (.take token n) .outside p ↔ Outside b token (b.entered token n) p := by
  unfold Visits
  constructor
  · rintro ⟨token, n, ⟨⟩, hp⟩
    exact hp
  · exact fun hp => ⟨token, n, rfl, hp⟩

/-- A use begins in its first stage. -/
theorem visits_use (b : Bucket) (u : Use) : b.Visits u u.first (b.use u) := by
  cases u with
  | take token n => exact visits_outside.mpr (outside_take b token n)
  | reset => exact fun now => ⟨⟨rfl, rfl, rfl⟩, ⟨rfl, rfl⟩, rfl⟩

/-! ## What an answer is for a use -/

/-- What a moment of a party is for its use: from which stage to which it leads. -/
inductive Moves {ι : Type} (b : Bucket) (u : Use) (e : Moment ι) :
    VisitStage → VisitStage → Prop where
  | waits {token : String} {n : UInt64} (hu : u = .take token n)
      (hask : (∃ length, e.ask = .pause length) ∨ (∃ event, e.ask = .note event) ∨
        e.ask = b.lockTry token)
      (hgrant : e.grant? = none) : Moves b u e .outside .outside
  | enters {token : String} {n : UInt64} (hu : u = .take token n)
      (hask : e.ask = b.lockTry token) (hgrant : e.grant? = some ⟨b.key.lockKey, token⟩) :
      Moves b u e .outside .entered
  | notes {event : LimiterEvent} (hask : e.ask = .note event) (stage : VisitStage) :
      Moves b u e stage stage
  | clocks (hask : e.ask = .now) : Moves b u e .entered (u.clocked e.reading)
  | loads (hu : u ≠ .reset) (hask : e.ask = .store (.get b.key.stateKey)) (now : UInt64) :
      Moves b u e (.clocked now)
        (.ofRead now (b.reads (e.before.live? b.key.stateKey e.reading)))
  | saves (now : UInt64) (state : Option TokenState)
      (hask : e.ask = .store (.set b.key.stateKey (b.settle now state u).2.encode
        b.config.stateTtl)) :
      Moves b u e (.loaded now state) (.settled (b.settle now state u).1)
  | frees {token : String} {n : UInt64} (hu : u = .take token n)
      (hask : e.ask = .store (.deleteIfEqual b.key.lockKey token))
      (result : Except LimitError Unit) : Moves b u e (.settled result) (.settled result)
  | clears (hu : u = .reset) (hask : e.ask = .store (.delete b.key.lockKey))
      (result : Except LimitError Unit) : Moves b u e (.settled result) (.settled result)

variable {ι : Type}

/-- A take that is outside tries, pauses or reports, and enters when a try succeeds. -/
theorem moves_of_outside (h : Outside b token (b.entered token n) (.ask ask held resume))
    (hup : m.unavailable = false) (i : ι) (r : UInt64) :
    ∃ stage', Moves b (.take token n) (Moment.of (some i) r ask m) .outside stage' ∧
      b.Visits (.take token n) stage' (resume (answerAt Memory.call r ask m).1) := by
  cases ask with
  | now => exact h.elim
  | pause length =>
      exact ⟨.outside, .waits rfl (.inl ⟨length, rfl⟩) rfl, visits_outside.mpr h⟩
  | note event =>
      exact ⟨.outside, .waits rfl (.inr (.inl ⟨event, rfl⟩)) rfl, visits_outside.mpr h⟩
  | store c =>
      cases c with
      | setIfAbsent key value ttl =>
          obtain ⟨rfl, rfl, rfl, hentered, hagain⟩ := h
          cases hlive : m.live? b.key.lockKey r with
          | some other =>
              have hcall : answerAt Memory.call r (b.lockTry value) m =
                  (.ok false, m.purge b.key.lockKey r) := answerAt_try_of_live hup hlive
              refine ⟨.outside, .waits rfl (.inr (.inr rfl)) ?_, ?_⟩
              · exact congrArg (granted? (b.lockTry value)) (congrArg Prod.fst hcall)
              · rw [hcall]
                exact visits_outside.mpr hagain
          | none =>
              have hcall : answerAt Memory.call r (b.lockTry value) m =
                  (.ok true, m.put b.key.lockKey ⟨value, Memory.expiry r b.config.lock.ttl⟩) :=
                answerAt_try_of_free hup hlive
              refine ⟨.entered, .enters rfl rfl ?_, ?_⟩
              · exact congrArg (granted? (b.lockTry value)) (congrArg Prod.fst hcall)
              · rw [hcall, hentered]
                exact visits_entered b value n
      | _ => exact h.elim

/-- A use that is answered moves on. -/
theorem Visits.moves (h : b.Visits u stage (.ask ask held resume))
    (hup : m.unavailable = false) (i : ι) (r : UInt64) :
    ∃ stage', Moves b u (Moment.of (some i) r ask m) stage stage' ∧
      b.Visits u stage' (resume (answerAt Memory.call r ask m).1) := by
  have hcall : ∀ c, answerAt Memory.call r (.store c) m =
      (.ok (m.answer r c).1, (m.answer r c).2) := Memory.call_of_available hup r
  cases stage with
  | outside =>
      obtain ⟨token, n, rfl, h⟩ := h
      exact moves_of_outside h hup i r
  | entered =>
      cases ask with
      | now => exact ⟨_, .clocks rfl, h r⟩
      | note event => exact ⟨_, .notes rfl _, h⟩
      | _ => exact h.elim
  | clocked now =>
      cases ask with
      | store c =>
          cases c with
          | get key =>
              obtain ⟨⟨rfl, hu⟩, hnext⟩ := h
              refine ⟨_, .loads hu rfl now, ?_⟩
              rw [hcall]
              exact hnext _
          | _ => exact h.elim
      | _ => exact h.elim
  | loaded now state =>
      cases ask with
      | store c =>
          cases c with
          | set key text ttl =>
              obtain ⟨⟨rfl, rfl, rfl⟩, hnext⟩ := h
              refine ⟨_, .saves now state rfl, ?_⟩
              rw [hcall]
              exact hnext
          | _ => exact h.elim
      | _ => exact h.elim
  | settled result =>
      cases ask with
      | note event => exact ⟨_, .notes rfl _, h⟩
      | store c =>
          -- A take gives back its own lock, a reset deletes anybody's.
          cases c with
          | deleteIfEqual key value =>
              obtain ⟨⟨rfl, n, rfl⟩, hnext⟩ := h
              refine ⟨_, .frees rfl rfl result, ?_⟩
              rw [hcall]
              exact hnext _
          | delete key =>
              obtain ⟨⟨rfl, rfl⟩, hnext⟩ := h
              refine ⟨_, .clears rfl rfl result, ?_⟩
              rw [hcall]
              exact hnext
          | _ => exact h.elim
      | _ => exact h.elim

end Bucket

end FlowControl
