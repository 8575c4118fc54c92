import FlowControl.Proofs.Breaker.Operations

/-!
# A breaker at work

A circuit is a breaker with its clock and with every permit it has issued.  Its acts are
the operations of the breaker, in any order and by whoever has a copy of it, and
changes of the clock to any reading.  A permit is known by its place in the order of
issue; it can be given back once.

The circuit counts its phases: a reset begins another phase, and so does every change
of the phase's kind.  The count does not look at the generation of the breaker, which
has 64 bits and wraps around; that the two agree is a theorem.

`Effect` lists what each act can do, one constructor for each way the breaker takes
it.  Invariants of runs are proved from it.
-/

namespace FlowControl

/-- A permit that was issued: the number of the phase that issued it, counted from zero, and
whether it is still out. -/
structure Ticket where
  permit : Permit
  phase : Nat
  isOut : Bool
  deriving DecidableEq, Repr

/-- A breaker, its clock, the number of phases begun after the first one, and the permits it has
issued in order. -/
structure Circuit where
  breaker : Breaker
  now : UInt64
  phases : Nat
  tickets : List Ticket
  deriving DecidableEq, Repr

/-- The same answer under another name. -/
def Breaker.Step.map {α β : Type} (f : α → β) (s : Breaker.Step α) : Breaker.Step β :=
  ⟨f s.answer, s.breaker, s.events⟩

/-- The last outcomes that a phase keeps, if it keeps any. -/
def Phase.window? : Phase → Option OutcomeWindow
  | .closed window | .halfOpen window _ => some window
  | .opened _ => none

namespace Circuit

/-- What can happen to a circuit.  A permit is given back with the outcome of its call, or
without one when it is dropped. -/
inductive Act where
  | acquire
  | settle (k : Nat) (failed : Option Bool)
  | observe
  | reset
  | setClock (reading : UInt64)
  deriving DecidableEq, Repr

inductive Answer where
  | admission (result : Except Duration Permit)
  | phase (kind : PhaseKind)
  | done

/-- A closed breaker that has issued nothing. -/
def start (config : BreakerConfig) (now : UInt64) : Circuit := ⟨.ofConfig config, now, 0, []⟩

/-- The permit of a number, if it is still out. -/
def out? (c : Circuit) (k : Nat) : Option Ticket := c.tickets[k]?.filter Ticket.isOut

/-- What the breaker answers to an act, how it leaves the act, and what it reports. -/
def perform (c : Circuit) : Act → Breaker.Step Answer
  | .acquire => (c.breaker.tryAcquire c.now).map .admission
  | .settle k failed =>
    match c.out? k with
    | some t => (c.breaker.settle t.permit failed c.now).map fun _ => .done
    | none => ⟨.done, c.breaker, []⟩
  | .observe => (c.breaker.observe c.now).map .phase
  | .reset => ⟨.done, c.breaker.reset, []⟩
  | .setClock _ => ⟨.done, c.breaker, []⟩

/-- Goes on with a breaker; if the kind of its phase is another one, it is the next phase. -/
def follow (c : Circuit) (b : Breaker) : Circuit :=
  { c with
    breaker := b
    phases := if b.phase.kind = c.breaker.phase.kind then c.phases else c.phases + 1 }

/-- Begins the next phase. -/
def enter (c : Circuit) (phase : Phase) : Circuit :=
  { c with breaker := c.breaker.enter phase, phases := c.phases + 1 }

/-- Changes the phase at hand. -/
def inPhase (c : Circuit) (phase : Phase) : Circuit :=
  { c with breaker := { c.breaker with phase } }

/-- Hands a permit out. -/
def issue (c : Circuit) (permit : Permit) : Circuit :=
  { c with tickets := c.tickets ++ [⟨permit, c.phases, true⟩] }

/-- Takes a permit back, if it is still out. -/
def giveBack (c : Circuit) (k : Nat) : Circuit :=
  match c.out? k with
  | some t => { c with tickets := c.tickets.set k { t with isOut := false } }
  | none => c

/-- The circuit after an act. -/
def step (c : Circuit) : Act → Circuit
  | .acquire =>
    let s := c.breaker.tryAcquire c.now
    match s.answer with
    | .ok permit => (c.follow s.breaker).issue permit
    | .error _ => c.follow s.breaker
  | .settle k failed => (c.follow (c.perform (.settle k failed)).breaker).giveBack k
  | .observe => c.follow (c.breaker.wake c.now).breaker
  | .reset => c.enter (Breaker.freshClosed c.breaker.config)
  | .setClock reading => { c with now := reading }

/-- The circuit after acts one after another. -/
def run (c : Circuit) (acts : List Act) : Circuit := acts.foldl step c

variable {c : Circuit} {a : Act} {acts : List Act} {k : Nat} {t : Ticket} {phase : Phase}

theorem run_cons (c : Circuit) (a : Act) (acts : List Act) :
    c.run (a :: acts) = (c.step a).run acts := rfl

/-- What every act keeps, a run keeps. -/
theorem run_keeps {P : Circuit → Prop} (hstep : ∀ c a, P c → P (c.step a)) (h : P c)
    (acts : List Act) : P (c.run acts) := by
  induction acts generalizing c with
  | nil => exact h
  | cons a acts ih => exact ih (hstep c a h)

theorem out?_eq_some_iff : c.out? k = some t ↔ c.tickets[k]? = some t ∧ t.isOut = true :=
  Option.filter_eq_some_iff

theorem giveBack_of_none (hout : c.out? k = none) : c.giveBack k = c := by
  simp [giveBack, hout]

theorem giveBack_of_some (hout : c.out? k = some t) :
    c.giveBack k = { c with tickets := c.tickets.set k { t with isOut := false } } := by
  simp [giveBack, hout]

@[simp] theorem breaker_giveBack (c : Circuit) (k : Nat) : (c.giveBack k).breaker = c.breaker := by
  unfold giveBack
  split <;> rfl

@[simp] theorem phases_giveBack (c : Circuit) (k : Nat) : (c.giveBack k).phases = c.phases := by
  unfold giveBack
  split <;> rfl

@[simp] theorem follow_breaker (c : Circuit) : c.follow c.breaker = c := by
  simp [follow]

theorem follow_of_same (hkind : phase.kind = c.breaker.phase.kind) :
    c.follow { c.breaker with phase } = c.inPhase phase := by
  simp [follow, inPhase, hkind]

theorem follow_of_other (hkind : phase.kind ≠ c.breaker.phase.kind) :
    c.follow (c.breaker.enter phase) = c.enter phase := by
  simp [follow, enter, Breaker.enter, hkind]

/-! ## Acts, one by one -/

theorem breaker_step (c : Circuit) (a : Act) : (c.step a).breaker = (c.perform a).breaker := by
  cases a with
  | acquire =>
      cases hanswer : (c.breaker.tryAcquire c.now).answer with
      | ok permit => simp [step, perform, Breaker.Step.map, hanswer, follow, issue]
      | error remaining => simp [step, perform, Breaker.Step.map, hanswer, follow]
  | settle k failed => simp [step, follow]
  | observe | reset | setClock reading => rfl

theorem step_settle_of_none (failed : Option Bool) (hout : c.out? k = none) :
    c.step (.settle k failed) = c := by
  simp [step, perform, hout, giveBack_of_none]

theorem step_settle_of_some (failed : Option Bool) (hout : c.out? k = some t) :
    c.step (.settle k failed) =
      (c.follow (c.breaker.settle t.permit failed c.now).breaker).giveBack k := by
  simp [step, perform, hout, Breaker.Step.map]

theorem step_observe (c : Circuit) :
    c.step .observe = c.follow (c.breaker.wake c.now).breaker := rfl

theorem step_acquire_of_ok {permit : Permit}
    (hanswer : (c.breaker.tryAcquire c.now).answer = .ok permit) :
    c.step .acquire = (c.follow (c.breaker.tryAcquire c.now).breaker).issue permit := by
  simp [step, hanswer]

theorem step_acquire_of_error {remaining : Duration}
    (hanswer : (c.breaker.tryAcquire c.now).answer = .error remaining) :
    c.step .acquire = c.follow (c.breaker.tryAcquire c.now).breaker := by
  simp [step, hanswer]

/-- Once the delay of an open phase has passed, asking for a permit begins the half-open phase and
is answered there. -/
theorem step_acquire_of_late {since : UInt64} (hphase : c.breaker.phase = .opened since)
    (hlate : c.breaker.config.openMillis ≤ c.now.toNat - since.toNat) :
    c.step .acquire =
      (c.enter (Breaker.freshHalfOpen c.breaker.config)).step .acquire := by
  have hopened : c.breaker.phase.kind = .opened := by rw [hphase]; rfl
  have hwake := Breaker.tryAcquire_of_late hphase hlate
  have hfresh : (c.breaker.enter (Breaker.freshHalfOpen c.breaker.config)).phase =
      .halfOpen (.empty c.breaker.config.success.capacity) 0 := rfl
  -- Whether the kind is compared with the open phase or the new one, the count is the same.
  have hfollow : ∀ b : Breaker, b.phase.kind = .halfOpen →
      c.follow b = (c.enter (Breaker.freshHalfOpen c.breaker.config)).follow b := by
    intro b hkind
    have hnew : (c.breaker.enter (Breaker.freshHalfOpen c.breaker.config)).phase.kind =
        .halfOpen := rfl
    simp [follow, hkind, hopened, hnew, enter]
  by_cases hroom : 0 < c.breaker.config.success.capacity
  · have hprobe := Breaker.tryAcquire_of_room c.now hfresh hroom
    rw [step_acquire_of_ok (by rw [hwake, hprobe]),
      step_acquire_of_ok (c := c.enter _) (congrArg Breaker.Step.answer hprobe), hwake,
      hfollow _ (by rw [hprobe]; rfl)]
    rfl
  · have hfull := Breaker.tryAcquire_of_full c.now hfresh (Nat.not_lt.mp hroom)
    rw [step_acquire_of_error (by rw [hwake, hfull]),
      step_acquire_of_error (c := c.enter _) (congrArg Breaker.Step.answer hfull), hwake,
      hfollow _ (by rw [hfull]; rfl)]
    rfl

/-! ## What an act can do -/

open Breaker in
/-- The ways in which a circuit takes an act.  A permit that is asked for when the delay of an
open phase has passed is asked for in the half-open phase that then begins. -/
inductive Effect : Circuit → Act → Circuit → Prop
  | clock (c : Circuit) (reading : UInt64) : Effect c (.setClock reading) { c with now := reading }
  | resets (c : Circuit) : Effect c .reset (c.enter (freshClosed c.breaker.config))
  | looks (c : Circuit) (hstays : ∀ since, c.breaker.phase = .opened since →
        c.now.toNat - since.toNat < c.breaker.config.openMillis) : Effect c .observe c
  | stirs (c : Circuit) {since : UInt64} (hphase : c.breaker.phase = .opened since)
      (hlate : c.breaker.config.openMillis ≤ c.now.toNat - since.toNat) :
      Effect c .observe (c.enter (freshHalfOpen c.breaker.config))
  | admits (c : Circuit) {window : OutcomeWindow} (hphase : c.breaker.phase = .closed window) :
      Effect c .acquire (c.issue ⟨c.breaker.generation, false⟩)
  | rejects (c : Circuit) {since : UInt64} (hphase : c.breaker.phase = .opened since)
      (hearly : c.now.toNat - since.toNat < c.breaker.config.openMillis) : Effect c .acquire c
  | full (c : Circuit) {window : OutcomeWindow} {inFlight : Nat}
      (hphase : c.breaker.phase = .halfOpen window inFlight)
      (hfull : c.breaker.config.success.capacity ≤ inFlight) : Effect c .acquire c
  | probes (c : Circuit) {window : OutcomeWindow} {inFlight : Nat}
      (hphase : c.breaker.phase = .halfOpen window inFlight)
      (hroom : inFlight < c.breaker.config.success.capacity) :
      Effect c .acquire
        ((c.inPhase (.halfOpen window (inFlight + 1))).issue ⟨c.breaker.generation, true⟩)
  | wakes {c c' : Circuit} {since : UInt64} (hphase : c.breaker.phase = .opened since)
      (hlate : c.breaker.config.openMillis ≤ c.now.toNat - since.toNat)
      (hthen : Effect (c.enter (freshHalfOpen c.breaker.config)) .acquire c') :
      Effect c .acquire c'
  | missing (c : Circuit) {k : Nat} (failed : Option Bool) (hout : c.out? k = none) :
      Effect c (.settle k failed) c
  | late (c : Circuit) {k : Nat} {t : Ticket} (failed : Option Bool) (hout : c.out? k = some t)
      (hgeneration : t.permit.generation ≠ c.breaker.generation) :
      Effect c (.settle k failed) (c.giveBack k)
  | idle (c : Circuit) {k : Nat} {t : Ticket} (failed : Option Bool) (hout : c.out? k = some t)
      {since : UInt64} (hphase : c.breaker.phase = .opened since) :
      Effect c (.settle k failed) (c.giveBack k)
  | forgets (c : Circuit) {k : Nat} {t : Ticket} (hout : c.out? k = some t)
      {window : OutcomeWindow} (hphase : c.breaker.phase = .closed window) :
      Effect c (.settle k none) (c.giveBack k)
  | counts (c : Circuit) {k : Nat} {t : Ticket} {failed : Bool} (hout : c.out? k = some t)
      (hgeneration : t.permit.generation = c.breaker.generation)
      {window : OutcomeWindow} (hphase : c.breaker.phase = .closed window)
      (hlow : (window.push failed).failures < c.breaker.config.failure.threshold) :
      Effect c (.settle k (some failed)) ((c.inPhase (.closed (window.push failed))).giveBack k)
  | trips (c : Circuit) {k : Nat} {t : Ticket} {failed : Bool} (hout : c.out? k = some t)
      (hgeneration : t.permit.generation = c.breaker.generation)
      {window : OutcomeWindow} (hphase : c.breaker.phase = .closed window)
      (hhigh : c.breaker.config.failure.threshold ≤ (window.push failed).failures) :
      Effect c (.settle k (some failed)) ((c.enter (.opened c.now)).giveBack k)
  | frees (c : Circuit) {k : Nat} {t : Ticket} (hout : c.out? k = some t)
      (hgeneration : t.permit.generation = c.breaker.generation)
      {window : OutcomeWindow} {inFlight : Nat}
      (hphase : c.breaker.phase = .halfOpen window inFlight) :
      Effect c (.settle k none) ((c.inPhase
        (.halfOpen window (if t.permit.isProbe then inFlight - 1 else inFlight))).giveBack k)
  | weighs (c : Circuit) {k : Nat} {t : Ticket} {failed : Bool} (hout : c.out? k = some t)
      (hgeneration : t.permit.generation = c.breaker.generation)
      {window : OutcomeWindow} {inFlight : Nat}
      (hphase : c.breaker.phase = .halfOpen window inFlight)
      (hfew : (window.push failed).successes < c.breaker.config.success.threshold)
      (htolerated : (window.push failed).failures ≤ c.breaker.config.toleratedFailures) :
      Effect c (.settle k (some failed)) ((c.inPhase (.halfOpen (window.push failed)
        (if t.permit.isProbe then inFlight - 1 else inFlight))).giveBack k)
  | recovers (c : Circuit) {k : Nat} {t : Ticket} {failed : Bool} (hout : c.out? k = some t)
      (hgeneration : t.permit.generation = c.breaker.generation)
      {window : OutcomeWindow} {inFlight : Nat}
      (hphase : c.breaker.phase = .halfOpen window inFlight)
      (henough : c.breaker.config.success.threshold ≤ (window.push failed).successes) :
      Effect c (.settle k (some failed))
        ((c.enter (freshClosed c.breaker.config)).giveBack k)
  | relapses (c : Circuit) {k : Nat} {t : Ticket} {failed : Bool} (hout : c.out? k = some t)
      (hgeneration : t.permit.generation = c.breaker.generation)
      {window : OutcomeWindow} {inFlight : Nat}
      (hphase : c.breaker.phase = .halfOpen window inFlight)
      (htoo : c.breaker.config.toleratedFailures < (window.push failed).failures) :
      Effect c (.settle k (some failed)) ((c.enter (.opened c.now)).giveBack k)

theorem effect_observe_of_stays (hwake : c.breaker.wake c.now = ⟨(), c.breaker, []⟩)
    (hstays : ∀ since, c.breaker.phase = .opened since →
      c.now.toNat - since.toNat < c.breaker.config.openMillis) :
    c.Effect .observe (c.step .observe) := by
  rw [step_observe, hwake, follow_breaker]
  exact .looks c hstays

theorem effect_observe (c : Circuit) : c.Effect .observe (c.step .observe) := by
  by_cases hopened : c.breaker.phase.kind = .opened
  · obtain ⟨since, hphase⟩ := Phase.exists_of_kind_opened hopened
    by_cases hlate : c.breaker.config.openMillis ≤ c.now.toNat - since.toNat
    · have hother : (Breaker.freshHalfOpen c.breaker.config).kind ≠ c.breaker.phase.kind := by
        rw [hopened]
        nofun
      rw [step_observe, Breaker.wake_of_late hphase hlate, follow_of_other hother]
      exact .stirs c hphase hlate
    · have hearly := Nat.not_le.mp hlate
      refine effect_observe_of_stays (Breaker.wake_of_early hphase hearly) ?_
      intro since' hphase'
      cases hphase.symm.trans hphase'
      exact hearly
  · refine effect_observe_of_stays (Breaker.wake_of_not_opened hopened) ?_
    intro since hphase
    rw [hphase] at hopened
    exact absurd rfl hopened

/-- A phase that is not open answers at once. -/
theorem effect_acquire_of_not_opened (hphase : c.breaker.phase.kind ≠ .opened) :
    c.Effect .acquire (c.step .acquire) := by
  cases hhere : c.breaker.phase with
  | opened since =>
      rw [hhere] at hphase
      exact absurd rfl hphase
  | closed window =>
      have hanswer := Breaker.tryAcquire_of_closed c.now hhere
      rw [step_acquire_of_ok (congrArg Breaker.Step.answer hanswer), hanswer, follow_breaker]
      exact .admits c hhere
  | halfOpen window inFlight =>
      by_cases hroom : inFlight < c.breaker.config.success.capacity
      · have hanswer := Breaker.tryAcquire_of_room c.now hhere hroom
        rw [step_acquire_of_ok (congrArg Breaker.Step.answer hanswer), hanswer,
          follow_of_same (by rw [hhere]; rfl)]
        exact .probes c hhere hroom
      · have hfull := Nat.not_lt.mp hroom
        have hanswer := Breaker.tryAcquire_of_full c.now hhere hfull
        rw [step_acquire_of_error (congrArg Breaker.Step.answer hanswer), hanswer, follow_breaker]
        exact .full c hhere hfull

theorem effect_acquire (c : Circuit) : c.Effect .acquire (c.step .acquire) := by
  by_cases hopened : c.breaker.phase.kind = .opened
  · obtain ⟨since, hphase⟩ := Phase.exists_of_kind_opened hopened
    by_cases hlate : c.breaker.config.openMillis ≤ c.now.toNat - since.toNat
    · rw [step_acquire_of_late hphase hlate]
      exact .wakes hphase hlate (effect_acquire_of_not_opened nofun)
    · have hearly := Nat.not_le.mp hlate
      have hanswer := Breaker.tryAcquire_of_early hphase hearly
      rw [step_acquire_of_error (congrArg Breaker.Step.answer hanswer), hanswer, follow_breaker]
      exact .rejects c hphase hearly
  · exact effect_acquire_of_not_opened hopened

theorem effect_record_of_closed {window : OutcomeWindow} (failed : Bool)
    (hout : c.out? k = some t) (hgeneration : t.permit.generation = c.breaker.generation)
    (hphase : c.breaker.phase = .closed window) :
    c.Effect (.settle k (some failed)) (c.step (.settle k (some failed))) := by
  have hkind : c.breaker.phase.kind = .closed := by rw [hphase]; rfl
  rw [step_settle_of_some _ hout, Breaker.settle_some_of_closed c.now hgeneration hphase]
  unfold Breaker.recordClosed
  by_cases hhigh : c.breaker.config.failure.threshold ≤ (window.push failed).failures
  · simp only [hhigh, if_true]
    rw [follow_of_other (by rw [hkind]; nofun)]
    exact .trips c hout hgeneration hphase hhigh
  · simp only [hhigh, if_false]
    rw [follow_of_same (by rw [hkind]; rfl)]
    exact .counts c hout hgeneration hphase (Nat.not_le.mp hhigh)

theorem effect_record_of_halfOpen {window : OutcomeWindow} {inFlight : Nat} (failed : Bool)
    (hout : c.out? k = some t) (hgeneration : t.permit.generation = c.breaker.generation)
    (hphase : c.breaker.phase = .halfOpen window inFlight) :
    c.Effect (.settle k (some failed)) (c.step (.settle k (some failed))) := by
  have hkind : c.breaker.phase.kind = .halfOpen := by rw [hphase]; rfl
  rw [step_settle_of_some _ hout, Breaker.settle_some_of_halfOpen c.now hgeneration hphase]
  unfold Breaker.recordHalfOpen
  by_cases henough : c.breaker.config.success.threshold ≤ (window.push failed).successes
  · simp only [henough, if_true]
    rw [follow_of_other (by rw [hkind]; nofun)]
    exact .recovers c hout hgeneration hphase henough
  · by_cases htoo : c.breaker.config.toleratedFailures < (window.push failed).failures
    · simp only [henough, htoo, if_true, if_false]
      rw [follow_of_other (by rw [hkind]; nofun)]
      exact .relapses c hout hgeneration hphase htoo
    · simp only [henough, htoo, if_false]
      rw [follow_of_same (by rw [hkind]; rfl)]
      exact .weighs c hout hgeneration hphase (Nat.not_le.mp henough) (Nat.not_lt.mp htoo)

theorem effect_settle (c : Circuit) (k : Nat) (failed : Option Bool) :
    c.Effect (.settle k failed) (c.step (.settle k failed)) := by
  cases hout : c.out? k with
  | none =>
      rw [step_settle_of_none failed hout]
      exact .missing c failed hout
  | some t =>
      have hstep := step_settle_of_some failed hout
      by_cases hgeneration : t.permit.generation = c.breaker.generation
      · cases hphase : c.breaker.phase with
        | opened since =>
            rw [hstep, Breaker.settle_of_opened failed c.now hphase, follow_breaker]
            exact .idle c failed hout hphase
        | closed window =>
            cases failed with
            | none =>
                rw [hstep, Breaker.settle_none_of_closed c.now hphase, follow_breaker]
                exact .forgets c hout hphase
            | some failed => exact effect_record_of_closed failed hout hgeneration hphase
        | halfOpen window inFlight =>
            cases failed with
            | none =>
                rw [hstep, Breaker.settle_none_of_halfOpen c.now hgeneration hphase,
                  follow_of_same (by rw [hphase]; rfl)]
                exact .frees c hout hgeneration hphase
            | some failed => exact effect_record_of_halfOpen failed hout hgeneration hphase
      · rw [hstep, Breaker.settle_of_ne failed c.now (Ne.symm hgeneration), follow_breaker]
        exact .late c failed hout hgeneration

/-- Every act has one of the effects listed. -/
theorem effect_step (c : Circuit) (a : Act) : c.Effect a (c.step a) := by
  cases a with
  | acquire => exact effect_acquire c
  | settle k failed => exact effect_settle c k failed
  | observe => exact effect_observe c
  | reset => exact .resets c
  | setClock reading => exact .clock c reading

theorem Effect.config_eq {c' : Circuit} (h : c.Effect a c') :
    c'.breaker.config = c.breaker.config := by
  induction h with
  | wakes hphase hlate hthen ih => exact ih
  | _ => simp [enter, inPhase, issue]

@[simp] theorem config_run (c : Circuit) (acts : List Act) :
    (c.run acts).breaker.config = c.breaker.config := by
  refine run_keeps (P := fun d => d.breaker.config = c.breaker.config) ?_ rfl acts
  intro d a hconfig
  rw [(effect_step d a).config_eq, hconfig]

/-! ## Permits that are out -/

theorem tickets_step_settle (c : Circuit) (k : Nat) (failed : Option Bool) :
    (c.step (.settle k failed)).tickets = (c.giveBack k).tickets := by
  unfold step giveBack
  show (match c.out? k with | some t => _ | none => _ : Circuit).tickets = _
  cases c.out? k <;> rfl

theorem out?_giveBack_self (c : Circuit) (k : Nat) : (c.giveBack k).out? k = none := by
  cases hout : c.out? k with
  | none => rw [giveBack_of_none hout, hout]
  | some t =>
      obtain ⟨hlt, -⟩ := List.getElem?_eq_some_iff.mp (out?_eq_some_iff.mp hout).1
      rw [giveBack_of_some hout]
      simp [out?, hlt]

theorem out?_giveBack_of_ne {j : Nat} (hne : j ≠ k) : (c.giveBack k).out? j = c.out? j := by
  cases hout : c.out? k with
  | none => rw [giveBack_of_none hout]
  | some t =>
      rw [giveBack_of_some hout]
      simp [out?, List.getElem?_set_ne hne.symm]

theorem out?_step_settle_self (c : Circuit) (k : Nat) (failed : Option Bool) :
    (c.step (.settle k failed)).out? k = none := by
  have hsame := out?_giveBack_self c k
  unfold out? at hsame ⊢
  rw [tickets_step_settle, hsame]

/-- A permit that is handed out is the next one in the order of issue. -/
theorem out?_step_acquire_of_ok {permit : Permit}
    (hanswer : (c.breaker.tryAcquire c.now).answer = .ok permit) :
    ∃ t, (c.step .acquire).out? c.tickets.length = some t ∧ t.permit = permit := by
  refine ⟨⟨permit, (c.follow (c.breaker.tryAcquire c.now).breaker).phases, true⟩, ?_, rfl⟩
  rw [step_acquire_of_ok hanswer, out?_eq_some_iff]
  refine ⟨?_, rfl⟩
  show (c.tickets ++ [_])[c.tickets.length]? = _
  exact List.getElem?_concat_length

/-- The permits of a circuit stay in their places, and only giving one back changes whether it is
out. -/
theorem out?_step_of_ne (hk : k < c.tickets.length) (ha : ∀ failed, a ≠ .settle k failed) :
    (c.step a).out? k = c.out? k := by
  cases a with
  | acquire =>
      cases hanswer : (c.breaker.tryAcquire c.now).answer with
      | ok permit =>
          rw [step_acquire_of_ok hanswer]
          show ((c.tickets ++ [_])[k]?).filter Ticket.isOut = _
          rw [List.getElem?_append_left hk]
          rfl
      | error remaining =>
          rw [step_acquire_of_error hanswer]
          rfl
  | settle j failed =>
      have hne : k ≠ j := fun hsame => ha failed (by rw [hsame])
      have hsame := out?_giveBack_of_ne (c := c) hne
      unfold out? at hsame ⊢
      rw [tickets_step_settle, hsame]
  | observe | reset | setClock reading => rfl

theorem length_tickets_le_step (c : Circuit) (a : Act) :
    c.tickets.length ≤ (c.step a).tickets.length := by
  cases a with
  | acquire =>
      cases hanswer : (c.breaker.tryAcquire c.now).answer with
      | ok permit =>
          rw [step_acquire_of_ok hanswer]
          show c.tickets.length ≤ (c.tickets ++ [_]).length
          simp
      | error remaining =>
          rw [step_acquire_of_error hanswer]
          exact Nat.le_refl _
  | settle j failed =>
      rw [tickets_step_settle]
      cases hout : c.out? j with
      | none => exact Nat.le_of_eq (by rw [giveBack_of_none hout])
      | some t => exact Nat.le_of_eq (by simp [giveBack_of_some hout])
  | observe | reset | setClock reading => exact Nat.le_refl _

theorem length_tickets_lt_step_acquire {permit : Permit}
    (hanswer : (c.breaker.tryAcquire c.now).answer = .ok permit) :
    c.tickets.length < (c.step .acquire).tickets.length := by
  rw [step_acquire_of_ok hanswer]
  show c.tickets.length < (c.tickets ++ [_]).length
  simp

/-- A permit that is dropped is not an outcome: the phase keeps its window, and goes on. -/
theorem window?_step_drop (c : Circuit) (k : Nat) :
    (c.step (.settle k none)).breaker.phase.window? = c.breaker.phase.window? ∧
      (c.step (.settle k none)).breaker.generation = c.breaker.generation := by
  have heffect := effect_step c (.settle k none)
  generalize c.step (.settle k none) = c' at heffect ⊢
  cases heffect with
  | missing => exact ⟨rfl, rfl⟩
  | late | idle | forgets => rw [breaker_giveBack]; exact ⟨rfl, rfl⟩
  | frees _ hout hgeneration hphase =>
      rw [breaker_giveBack, hphase]
      exact ⟨rfl, rfl⟩

end Circuit

end FlowControl
