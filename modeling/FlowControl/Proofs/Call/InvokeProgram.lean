import FlowControl.Call.Wrapper
import FlowControl.Proofs.Routine

/-!
# What a guarded call asks, and in which order

While a guarded call decides it holds nothing: it may ask the breaker, sleep, roll or
report.  Once it has a permit it makes the call and nothing else; then it owes the
breaker the outcome and pays it before anything else is asked.  A rejection leaves
nothing to do but to report it and to end with it.

This holds whatever the answers are, for every retry policy and every classifier, so
nothing is assumed here of the breaker or of the service.
-/

namespace FlowControl

/-! ## Retries -/

namespace Retry

variable {α β : Type}

/-- Nothing is held between attempts. -/
theorem held_eq_nil (held : List (interface α).Held) : held = [] :=
  List.eq_nil_iff_forall_not_mem.mpr fun h => h.elim

/-- Does an error of the operation end the program unchanged? -/
def EndsOnError : Program α (Except ResilienceError α) → Prop
  | .done _ => True
  | .ask (.operate _) _ resume =>
    (∀ error, resume (.error error) = .done (.error error)) ∧
      ∀ outcome, EndsOnError (resume (.ok outcome))
  | .ask (.sleep _) _ resume => EndsOnError (resume ())
  | .ask .roll _ resume => ∀ word, EndsOnError (resume word)
  | .ask (.note _) _ resume => EndsOnError (resume ())

/-- Rolls may come before a program that ends on errors. -/
theorem EndsOnError.after_rolls {p : Program α β}
    {next : β → Program α (Except ResilienceError α)}
    (hp : p.Asks fun ask _ => ask = Ask.roll) (hnext : ∀ b, EndsOnError (next b)) :
    EndsOnError (p.bind next) := by
  induction p with
  | done b => exact hnext b
  | ask ask held resume ih =>
      obtain ⟨rfl, hp⟩ := hp
      exact fun word => ih word (hp word)

/-- Choosing within a range only rolls. -/
theorem asks_rollBetween (low high : UInt64) :
    (rollBetween (roll : Program α UInt64) low high).Asks fun ask _ => ask = Ask.roll := by
  refine ⟨rfl, fun first => ?_⟩
  show Routine.Asks _ (if _ then _ else _)
  split
  · trivial
  · show Routine.Asks _ (if _ then _ else _)
    split
    · exact ⟨rfl, fun second => trivial⟩
    · trivial

/-- Spreading a delay only rolls. -/
theorem asks_apply (j : Jitter) (delay : Duration) :
    (j.apply (roll : Program α UInt64) delay).Asks fun ask _ => ask = Ask.roll := by
  unfold Jitter.apply
  split
  · trivial
  · exact (asks_rollBetween _ _).bind Routine.yields_true fun _ _ => trivial

/-- Whatever the policy, an error of the operation ends the attempts. -/
theorem endsOnError_executeFrom (p : RetryPolicy) (attempt : Nat) :
    EndsOnError (p.executeFrom attempt : Program α (Except ResilienceError α)) := by
  rw [RetryPolicy.executeFrom]
  refine ⟨fun error => rfl, ?_⟩
  rintro (value | ⟨verdict, failure⟩)
  · trivial
  · show EndsOnError (if _ then _ else if _ then _ else _)
    split
    · trivial
    · split
      · trivial
      · exact EndsOnError.after_rolls (asks_apply p.jitter _) fun delay =>
          endsOnError_executeFrom p (attempt + 1)
termination_by p.maxAttempts - attempt

end Retry

/-! ## Guarded calls -/

/-- Where a guarded call stands.  A permit comes with its place in the order of issue, which the
program does not see.  Nothing is asked between a permit and its call, nor between being dropped
and giving a permit up. -/
inductive CallStage where
  | deciding
  | admitted (k : Nat) (permit : Permit)
  | calling (k : Nat) (permit : Permit)
  | owing (k : Nat) (permit : Permit) (failed : Bool)
  | refused (remaining : Duration)
  | leaving (k : Nat) (permit : Permit)
  | ended
  deriving DecidableEq, Repr

/-- The permit that is held in a stage, and its place. -/
def CallStage.held? : CallStage → Option (Nat × Permit)
  | .admitted k permit | .calling k permit | .owing k permit _ | .leaving k permit =>
    some (k, permit)
  | .deciding | .refused _ | .ended => none

namespace Wrapper

variable {α : Type} {w : Wrapper} {target k : Nat} {permit : Permit} {remaining : Duration}

/-- Is the result of an attempt a failure for the breaker? -/
def counts (w : Wrapper) : Except Failure α → Bool
  | .ok _ => false
  | .error failure => (w.classifier failure).tripsBreaker

/-- Does a program ask as a guarded call in some stage does? -/
def Follows (w : Wrapper) : CallStage → Program α (Except ResilienceError α) → Prop
  | .deciding, .done _ => True
  | .deciding, .ask .acquire held resume =>
    held = [] ∧ (∀ remaining, Follows w (.refused remaining) (resume (.error remaining))) ∧
      ∀ permit k, Follows w (.calling k permit) (resume (.ok permit))
  | .deciding, .ask (.sleep _) held resume => held = [] ∧ Follows w .deciding (resume ())
  | .deciding, .ask .roll held resume =>
    held = [] ∧ ∀ word, Follows w .deciding (resume word)
  | .deciding, .ask (.note _) held resume => held = [] ∧ Follows w .deciding (resume ())
  | .calling k permit, .ask (.call _ limit) held resume =>
    held = [permit] ∧ limit = w.timeout ∧
      ∀ result, Follows w (.owing k permit (w.counts result)) (resume result)
  | .owing k permit failed, .ask (.note _) held resume =>
    held = [permit] ∧ Follows w (.owing k permit failed) (resume ())
  | .owing _ permit failed, .ask (.settle permit' failed') held resume =>
    permit' = permit ∧ failed' = failed ∧ held = [permit] ∧ Follows w .deciding (resume ())
  | .ended, .done _ => True
  | .refused remaining, .done result => result = .error (.circuitOpen remaining)
  | .refused remaining, .ask (.note _) held resume =>
    held = [] ∧ Follows w (.refused remaining) (resume ())
  | _, _ => False

/-- An attempt may come before a program that decides, and that ends when it is refused. -/
theorem follows_attempt {number : Nat}
    {next : Except ResilienceError (Outcome α) → Program α (Except ResilienceError α)}
    (hrefused : ∀ remaining, next (.error (.circuitOpen remaining)) =
      .done (.error (.circuitOpen remaining)))
    (hnext : ∀ outcome, Follows w .deciding (next (.ok outcome))) :
    Follows w .deciding ((w.attempt target number).bind next) := by
  refine ⟨rfl, ?_, ?_⟩
  · intro remaining
    refine ⟨rfl, ?_⟩
    show Follows w _ (next (.error (.circuitOpen remaining)))
    rw [hrefused]
    rfl
  · intro permit k
    refine ⟨rfl, rfl, ?_⟩
    -- A failure is reported before it is paid for.
    rintro (failure | value)
    · exact ⟨rfl, rfl, rfl, rfl, hnext _⟩
    · exact ⟨rfl, rfl, rfl, hnext _⟩

/-- Attempts put in place of the questions of a retry make a guarded call. -/
theorem follows_interpret {p : Retry.Program α (Except ResilienceError α)}
    (hp : Retry.EndsOnError p) :
    Follows w .deciding (Routine.interpret (J := interface α) Empty.elim (w.answer target) p) := by
  -- On the retry: each of its questions becomes one of the call, but for `operate`, which becomes
  -- a whole attempt.
  induction p with
  | done result => trivial
  | ask ask held resume ih =>
      obtain rfl := Retry.held_eq_nil held
      cases ask with
      | operate number =>
          refine follows_attempt (fun remaining => ?_) fun outcome => ih _ (hp.2 outcome)
          rw [hp.1]
          rfl
      | sleep length => exact ⟨rfl, ih () hp⟩
      | roll => exact ⟨rfl, fun word => ih word (hp word)⟩
      | note event => exact ⟨rfl, ih () hp⟩

/-- A guarded call begins by deciding. -/
theorem follows_invoke (w : Wrapper) (target : Nat) :
    Follows w .deciding (w.invoke target : Program α (Except ResilienceError α)) :=
  follows_interpret (Retry.endsOnError_executeFrom w.retry 1)

end Wrapper

end FlowControl
