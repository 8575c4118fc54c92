import FlowControl.Proofs.Breaker.Circuit
import FlowControl.Proofs.Call.InvokeProgram

/-!
# A guarded call beside others

One guarded call runs over a circuit that any number of others use as well, each act of
theirs between any two of its questions.  Attempts take as long as they take and end as
they end; the limit on each decides what becomes of it.  The call may be dropped before
it asks the breaker, while an attempt runs and while it sleeps; the permits it holds
there are given up.  A permit belongs to who was granted it, so nobody else gives it
back.

`Accounted` is the invariant: the past is one that a call in its stage can have, and the
only permit of the call that is out is the one its stage holds.
-/

namespace FlowControl

/-- What happened to a guarded call; permits are told by their places in the order of issue. -/
inductive CallMoment (α : Type) where
  | granted (k : Nat)
  | refused (remaining : Duration)
  | called
  | finished (result : Except Failure α)
  | recorded (k : Nat) (failed : Bool)
  | slept (length : Duration)
  | dropped
  | freed (k : Nat)
  | returned (result : Except ResilienceError α)

namespace CallMoment

variable {α : Type}

/-- The permit that was granted. -/
def ticket? : CallMoment α → Option Nat
  | .granted k => some k
  | _ => none

/-- Was the call made? -/
def isCall : CallMoment α → Bool
  | .called => true
  | _ => false

/-- What begins when a program asks its next question, or ends. -/
def ofNext : Wrapper.Program α (Except ResilienceError α) → List (CallMoment α)
  | .ask (.call ..) _ _ => [.called]
  | .ask (.sleep length) _ _ => [.slept length]
  | .done result => [.returned result]
  | _ => []

end CallMoment

/-- May a guarded call be dropped where it asks this? -/
def Wrapper.Ask.mayDrop : Wrapper.Ask → Bool
  | .acquire | .ready _ | .call .. | .sleep _ => true
  | _ => false

/-- A guarded call over a circuit: what it has left to do, unless it was dropped, and what
happened to it, the latest first. -/
structure GuardedCall (α : Type) where
  circuit : Circuit
  task : Option (Wrapper.Program α (Except ResilienceError α))
  past : List (CallMoment α)

namespace GuardedCall

variable {α : Type}

/-- What can happen next: others act on the circuit, the call is answered (by an attempt of some
length and result, if it made one, and by a random word, if it rolled), or it is dropped. -/
inductive Act (α : Type) where
  | other (act : Circuit.Act)
  | go (latency : Duration) (result : Except CallError α) (word : UInt64)
  | drop

/-- A guarded call before its first question. -/
def start (w : Wrapper) (target : Nat) (circuit : Circuit) : GuardedCall α :=
  ⟨circuit, some (w.invoke target), []⟩

/-- The permits that the call was granted, the latest first. -/
def tickets (s : GuardedCall α) : List Nat := s.past.filterMap CallMoment.ticket?

/-- The place of a permit that the call was granted and that is still out. -/
def own? (s : GuardedCall α) (permit : Permit) : Option Nat :=
  -- Permits of one generation are alike, so the value alone does not tell whose it is.
  s.tickets.find? fun k => (s.circuit.out? k).any fun t => t.permit == permit

/-- Is this the return of a permit that the call was granted? -/
def isOwn (s : GuardedCall α) : Circuit.Act → Bool
  | .settle k _ => s.tickets.contains k
  | _ => false

/-- The answer to a question, the circuit after it, and what happened. -/
def answer (s : GuardedCall α) (latency : Duration) (result : Except CallError α)
    (word : UInt64) : (ask : Wrapper.Ask) → ask.Answer α × Circuit × List (CallMoment α)
  | .acquire =>
    match (s.circuit.breaker.tryAcquire s.circuit.now).answer with
    | .ok permit =>
      (.ok permit, s.circuit.step .acquire, [.granted s.circuit.tickets.length])
    | .error remaining => (.error remaining, s.circuit.step .acquire, [.refused remaining])
  | .ready _ => (.ok (), s.circuit, [])
  | .call _ limit =>
    (limit.bound latency result, s.circuit, [.finished (limit.bound latency result)])
  | .settle permit failed =>
    match s.own? permit with
    | some k => ((), s.circuit.step (.settle k (some failed)), [.recorded k failed])
    | none => ((), s.circuit, [])
  | .sleep _ => ((), s.circuit, [])
  | .roll => (word, s.circuit, [])
  | .note _ => ((), s.circuit, [])

/-- Goes on with a program after some moments. -/
def goOn (s : GuardedCall α) (circuit : Circuit) (moments : List (CallMoment α))
    (p : Wrapper.Program α (Except ResilienceError α)) : GuardedCall α :=
  ⟨circuit, some p, CallMoment.ofNext p ++ (moments ++ s.past)⟩

/-- Gives a permit up without an outcome. -/
def free (s : GuardedCall α) (permit : Permit) : GuardedCall α :=
  match s.own? permit with
  | some k =>
    { s with circuit := s.circuit.step (.settle k none), past := .freed k :: s.past }
  | none => s

/-- What an act does; a call that has ended or is gone does nothing more. -/
def step (s : GuardedCall α) : Act α → GuardedCall α
  | .other act => if s.isOwn act then s else { s with circuit := s.circuit.step act }
  | .go latency result word =>
    match s.task with
    | some (.ask ask _ resume) =>
      let (answer, circuit, moments) := s.answer latency result word ask
      s.goOn circuit moments (resume answer)
    | _ => s
  | .drop =>
    match s.task with
    | some (.ask ask held _) =>
      if ask.mayDrop then held.foldl free { s with task := none, past := .dropped :: s.past }
      else s
    | _ => s

/-- What acts do one after another. -/
def run (s : GuardedCall α) (acts : List (Act α)) : GuardedCall α := acts.foldl step s

/-- Is the call asleep, at its end, or gone? -/
def isAtRest (s : GuardedCall α) : Bool :=
  match s.task with
  | none | some (.done _) | some (.ask (.sleep _) _ _) => true
  | _ => false

/-! ## Permits and places -/

/-- Is the permit that is held, and no other of these, out?  Permits are told by their places. -/
structure Holds (c : Circuit) (tickets : List Nat) (held : Option (Nat × Permit)) : Prop where
  out : ∀ k permit, held = some (k, permit) →
    k ∈ tickets ∧ ∃ t, c.out? k = some t ∧ t.permit = permit
  others : ∀ k ∈ tickets, held.map Prod.fst ≠ some k → c.out? k = none
  issued : ∀ k ∈ tickets, k < c.tickets.length
  nodup : tickets.Nodup

variable {c : Circuit} {tickets : List Nat} {held : Option (Nat × Permit)} {k : Nat}
  {permit : Permit} {w : Wrapper} {s : GuardedCall α} {stage : CallStage}

/-- What others do is not noticed. -/
theorem Holds.step (h : Holds c tickets held) {a : Circuit.Act}
    (ha : ∀ k ∈ tickets, ∀ failed, a ≠ .settle k failed) : Holds (c.step a) tickets held where
  out k permit hheld := by
    obtain ⟨hk, t, hout, hpermit⟩ := h.out k permit hheld
    exact ⟨hk, t, (Circuit.out?_step_of_ne (h.issued k hk) (ha k hk)).trans hout, hpermit⟩
  others k hk hother :=
    (Circuit.out?_step_of_ne (h.issued k hk) (ha k hk)).trans (h.others k hk hother)
  issued k hk := Nat.lt_of_lt_of_le (h.issued k hk) (Circuit.length_tickets_le_step c a)
  nodup := h.nodup

/-- A permit that is granted is held. -/
theorem Holds.grant (h : Holds c tickets none)
    (hanswer : (c.breaker.tryAcquire c.now).answer = .ok permit) :
    Holds (c.step .acquire) (c.tickets.length :: tickets)
      (some (c.tickets.length, permit)) := by
  have hbefore : Holds (c.step .acquire) tickets none := h.step fun _ _ _ => nofun
  refine ⟨?_, ?_, ?_, ?_⟩
  · rintro k permit ⟨⟩
    exact ⟨List.mem_cons_self, Circuit.out?_step_acquire_of_ok hanswer⟩
  · intro k hk hother
    rcases List.mem_cons.mp hk with rfl | hk
    · exact absurd rfl hother
    · exact hbefore.others k hk nofun
  · intro k hk
    rcases List.mem_cons.mp hk with rfl | hk
    · exact Circuit.length_tickets_lt_step_acquire hanswer
    · exact hbefore.issued k hk
  · exact List.nodup_cons.mpr ⟨fun hmem => Nat.lt_irrefl _ (h.issued _ hmem), h.nodup⟩

/-- A permit that is given back leaves none. -/
theorem Holds.giveBack (h : Holds c tickets (some (k, permit))) (failed : Option Bool) :
    Holds (c.step (.settle k failed)) tickets none where
  out j permit hheld := by cases hheld
  others j hj _ := by
    -- Giving a permit back touches its own place only, and no other of the call was out.
    by_cases hsame : j = k
    · subst hsame
      exact Circuit.out?_step_settle_self c j failed
    · have hne : ∀ failed', Circuit.Act.settle k failed ≠ .settle j failed' :=
        fun _ heq => hsame (Circuit.Act.settle.inj heq).1.symm
      rw [Circuit.out?_step_of_ne (h.issued j hj) hne]
      exact h.others j hj fun heq => hsame (Option.some.inj heq).symm
  issued j hj := Nat.lt_of_lt_of_le (h.issued j hj) (Circuit.length_tickets_le_step c _)
  nodup := h.nodup

/-- The permit that is held is found by its value. -/
theorem Holds.own? (h : Holds s.circuit s.tickets (some (k, permit))) :
    s.own? permit = some k := by
  obtain ⟨hk, t, hout, hpermit⟩ := h.out k permit rfl
  have hsome : (s.own? permit).isSome = true :=
    List.find?_isSome.mpr ⟨k, hk, by simp [hout, hpermit]⟩
  obtain ⟨j, hj⟩ := Option.isSome_iff_exists.mp hsome
  -- Whatever is found is out, and nothing else of the call is.
  have hfound := List.find?_some hj
  by_cases hsame : j = k
  · rw [hj, hsame]
  · rw [h.others j (List.mem_of_find?_eq_some hj) fun heq => hsame (Option.some.inj heq).symm]
      at hfound
    cases hfound

/-! ## The order of moments -/

/-- What may happen in a stage, and the stage after it. -/
inductive Next (w : Wrapper) : CallStage → CallMoment α → CallStage → Prop
  | granted (k : Nat) (permit : Permit) : Next w .deciding (.granted k) (.admitted k permit)
  | refused (remaining : Duration) : Next w .deciding (.refused remaining) (.refused remaining)
  | called (k : Nat) (permit : Permit) : Next w (.admitted k permit) .called (.calling k permit)
  | finished (k : Nat) (permit : Permit) (result : Except Failure α) :
      Next w (.calling k permit) (.finished result) (.owing k permit (w.counts result))
  | recorded (k : Nat) (permit : Permit) (failed : Bool) :
      Next w (.owing k permit failed) (.recorded k failed) .deciding
  | slept (length : Duration) : Next w .deciding (.slept length) .deciding
  | returned (result : Except ResilienceError α) : Next w .deciding (.returned result) .ended
  | rejected (remaining : Duration) :
      Next w (.refused remaining) (.returned (.error (.circuitOpen remaining))) .ended
  | dropped : Next w .deciding .dropped .ended
  | broken (k : Nat) (permit : Permit) : Next w (.calling k permit) .dropped (.leaving k permit)
  | freed (k : Nat) (permit : Permit) : Next w (.leaving k permit) (.freed k) .ended

/-- The pasts, latest moment first, with which a guarded call can stand in a stage. -/
inductive Orderly (w : Wrapper) : List (CallMoment α) → CallStage → Prop
  | start : Orderly w [] .deciding
  | moment {past : List (CallMoment α)} {stage stage' : CallStage} {e : CallMoment α}
      (h : Orderly w past stage) (hnext : Next w stage e stage') : Orderly w (e :: past) stage'

/-- A guarded call stands in a stage: what it has left to do, its past and its permits agree. -/
structure Accounted (w : Wrapper) (s : GuardedCall α) (stage : CallStage) : Prop where
  follows : ∀ p, s.task = some p → Wrapper.Follows w stage p
  gone : s.task = none → stage = .ended
  orderly : Orderly w s.past stage
  holds : Holds s.circuit s.tickets stage.held?

end GuardedCall

end FlowControl
