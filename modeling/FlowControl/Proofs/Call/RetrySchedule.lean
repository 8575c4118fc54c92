import FlowControl.Call.Retry

/-!
# The course of a retry

A script says how every attempt ends and which words the dice show.  Against any script a retry
makes its attempts one after another, up to the first one that does not end in a retryable
failure, or as many as its policy allows.  Between two attempts it sleeps once, for the delay of
the schedule, spread by the words that come next.  It ends with what the last attempt gave;
only if that is a retryable failure are the attempts exhausted.

Rolls are counted, so that it is known which words spread which delay.
-/

namespace FlowControl

namespace Retry

/-- What a retry does that others can see: an attempt under its number, or a sleep. -/
inductive Act where
  | attempt (number : Nat)
  | sleep (length : Duration)
  deriving DecidableEq, Repr

/-- Is it a sleep? -/
def Act.isSleep : Act → Bool
  | .attempt _ => false
  | .sleep _ => true

/-- How the attempts end, the first one under number one, and the random words to come. -/
structure Script (α : Type) where
  result : Nat → Except ResilienceError (Outcome α)
  word : Nat → UInt64

/-- What has been done so far, the attempts among it, and how many words have been rolled. -/
structure Diary where
  acts : List Act
  attempts : Nat
  rolled : Nat
  deriving DecidableEq, Repr

/-- Nothing has been done. -/
def Diary.blank : Diary := ⟨[], 0, 0⟩

/-- Does an attempt end in a failure that may be tried again? -/
def isRetried {α : Type} : Except ResilienceError (Outcome α) → Bool
  | .ok (.failure verdict _) => verdict.isRetryable
  | _ => false

namespace Script

variable {α : Type}

/-- Surroundings that follow the script: each attempt ends as its turn says, whatever its number. -/
def answer (s : Script α) :
    (ask : (interface α).Request) → Diary → (interface α).Answer ask × Diary
  | .operate number, d =>
    (s.result (d.attempts + 1),
      { d with acts := d.acts ++ [.attempt number], attempts := d.attempts + 1 })
  | .sleep length, d => ((), { d with acts := d.acts ++ [.sleep length] })
  | .roll, d => (s.word d.rolled, { d with rolled := d.rolled + 1 })
  | .note _, d => ((), d)

/-- The next word, when the words are counted. -/
def nextWord (s : Script α) : StateM Nat UInt64 := fun rolled => (s.word rolled, rolled + 1)

end Script

end Retry

namespace RetryPolicy

open Retry

variable {α : Type}

/-- The delay after an attempt, spread by the words from a place on, and the place of the next
word. -/
def spread (p : RetryPolicy) (s : Script α) (attempt rolled : Nat) : Duration × Nat :=
  (p.jitter.apply s.nextWord (p.backoff.delay attempt)).run rolled

/-- How many words the sleeps after these attempts use up. -/
def rolledBy (p : RetryPolicy) (s : Script α) : Nat → Nat
  | 0 => 0
  | j + 1 => (p.spread s (j + 1) (p.rolledBy s j)).2

/-- The sleep between an attempt and the next one. -/
def pause (p : RetryPolicy) (s : Script α) (attempt : Nat) : Duration :=
  (p.spread s attempt (p.rolledBy s (attempt - 1))).1

/-- The first attempts, each with the sleep after it. -/
def rounds (p : RetryPolicy) (s : Script α) (attempts : Nat) : List Act :=
  (List.range' 1 attempts).flatMap fun j => [.attempt j, .sleep (p.pause s j)]

/-- What a retry ends with when it ends with this result of an attempt. -/
def ending (p : RetryPolicy) : Except ResilienceError (Outcome α) → Except ResilienceError α
  | .error error => .error error
  | .ok (.success value) => .ok value
  | .ok (.failure verdict failure) =>
    .error (if verdict.isRetryable then .exhausted p.maxAttempts failure else .fatal failure)

/-- The diary when an attempt begins that comes after these ones. -/
def before (p : RetryPolicy) (s : Script α) (attempts : Nat) : Diary :=
  ⟨p.rounds s attempts, attempts, p.rolledBy s attempts⟩

variable {p : RetryPolicy} {s : Script α} {d : Diary}

theorem rounds_succ (p : RetryPolicy) (s : Script α) (j : Nat) :
    p.rounds s (j + 1) = p.rounds s j ++ [.attempt (j + 1), .sleep (p.pause s (j + 1))] := by
  rw [rounds, List.range'_1_concat, List.flatMap_append, Nat.add_comm 1 j]
  rfl

/-- Every round has one sleep. -/
theorem countP_rounds (p : RetryPolicy) (s : Script α) (j : Nat) :
    (p.rounds s j).countP Act.isSleep = j := by
  induction j with
  | zero => rfl
  | succ j ih =>
      rw [rounds_succ, List.countP_append, ih]
      rfl

/-- Does a program do nothing but roll the words that this computation takes? -/
def RollsAs {β : Type} (s : Script α) (q : Program α β) (m : StateM Nat β) : Prop :=
  ∀ d : Diary, q.run s.answer d = ((m.run d.rolled).1, { d with rolled := (m.run d.rolled).2 })

theorem rollsAs_pure {β : Type} (b : β) : RollsAs s (pure b) (pure b) := fun _ => rfl

theorem rollsAs_roll : RollsAs s roll s.nextWord := fun _ => rfl

theorem RollsAs.bind {β γ : Type} {q : Program α β} {m : StateM Nat β} {f : β → Program α γ}
    {g : β → StateM Nat γ} (h : RollsAs s q m) (hthen : ∀ b, RollsAs s (f b) (g b)) :
    RollsAs s (q >>= f) (m >>= g) := by
  intro d
  rw [Routine.bind_eq, Routine.run_bind, h d]
  exact hthen _ _

/-- Choosing within a range rolls the words that come next. -/
theorem rollsAs_rollBetween (low high : UInt64) :
    RollsAs s (rollBetween roll low high) (rollBetween s.nextWord low high) := by
  refine rollsAs_roll.bind fun first => ?_
  split
  · exact rollsAs_pure _
  · show RollsAs s (if _ then _ else _) (if _ then _ else _)
    split
    · exact rollsAs_roll.bind fun second => rollsAs_pure _
    · exact rollsAs_pure _

/-- Spreading a delay rolls the words that come next. -/
theorem rollsAs_apply (j : Jitter) (delay : Duration) :
    RollsAs s (j.apply roll delay) (j.apply s.nextWord delay) := by
  unfold Jitter.apply
  split
  · exact rollsAs_pure _
  · exact (rollsAs_rollBetween _ _).bind fun millis => rollsAs_pure _

/-! ## Attempt by attempt -/

/-- The diary when an attempt has just ended that comes after these ones. -/
def ended (p : RetryPolicy) (s : Script α) (j : Nat) : Diary :=
  ⟨p.rounds s j ++ [.attempt (j + 1)], j + 1, p.rolledBy s j⟩

/-- The sleep after an attempt completes its round. -/
theorem run_sleep_ended {β : Type} (event : Duration → CallEvent) (next : Program α β) (j : Nat) :
    (do
      let delay ← p.jitter.apply roll (p.backoff.delay (j + 1))
      note (event delay)
      sleep delay
      next : Program α β).run s.answer (p.ended s j) = next.run s.answer (p.before s (j + 1)) := by
  rw [Routine.bind_eq, Routine.run_bind, rollsAs_apply]
  have hdiary : p.before s (j + 1) =
      { p.ended s j with
        acts := (p.ended s j).acts ++ [.sleep (p.pause s (j + 1))]
        rolled := (p.spread s (j + 1) (p.rolledBy s j)).2 } := by
    rw [before, rounds_succ, ended, List.append_assoc]
    rfl
  rw [hdiary]
  rfl

theorem run_operate (p : RetryPolicy) (s : Script α) (j : Nat) :
    (operate (j + 1)).run s.answer (p.before s j) = (s.result (j + 1), p.ended s j) := rfl

/-- A retryable failure that is not the last one allowed: the retry sleeps and tries again. -/
theorem run_executeFrom_of_retried {j : Nat} (hretried : isRetried (s.result (j + 1)) = true)
    (hmore : j + 1 < p.maxAttempts) :
    (p.executeFrom (j + 1)).run s.answer (p.before s j) =
      (p.executeFrom (j + 2)).run s.answer (p.before s (j + 1)) := by
  rw [executeFrom, Routine.bind_eq, Routine.run_bind, run_operate]
  generalize s.result (j + 1) = result at *
  match result, hretried with
  | .ok (.failure verdict failure), hretried =>
    have hverdict : verdict.isRetryable = true := hretried
    simp only [hverdict, Bool.not_true, Bool.false_eq_true, if_false, if_neg (Nat.not_le.mpr hmore)]
    exact run_sleep_ended _ _ j

/-- Any other end of an attempt ends the retry. -/
theorem run_executeFrom_of_last {j : Nat}
    (hlast : isRetried (s.result (j + 1)) = true → j + 1 = p.maxAttempts) :
    (p.executeFrom (j + 1)).run s.answer (p.before s j) =
      (p.ending (s.result (j + 1)), p.ended s j) := by
  rw [executeFrom, Routine.bind_eq, Routine.run_bind, run_operate]
  generalize s.result (j + 1) = result at *
  match result, hlast with
  | .error error, _ => rfl
  | .ok (.success value), _ => rfl
  | .ok (.failure verdict failure), hlast =>
    by_cases hverdict : verdict.isRetryable = true
    · have hall : j + 1 = p.maxAttempts := hlast hverdict
      simp only [ending, hverdict, Bool.not_true, Bool.false_eq_true, if_false, if_true, hall,
        Nat.le_refl]
      rfl
    · simp only [ending, hverdict, Bool.not_false, if_true, if_false, Bool.false_eq_true]
      rfl

/-- From any attempt on, a retry goes on to the first one that is not retried, or to the last one
allowed. -/
theorem exists_run_executeFrom (p : RetryPolicy) (s : Script α) {j : Nat} (hj : j < p.maxAttempts) :
    ∃ k, (j < k ∧ k ≤ p.maxAttempts) ∧
      (∀ i, j < i → i < k → isRetried (s.result i) = true) ∧
      (k < p.maxAttempts → isRetried (s.result k) = false) ∧
      (p.executeFrom (j + 1)).run s.answer (p.before s j) =
        (p.ending (s.result k), p.ended s (k - 1)) := by
  by_cases hgoes : isRetried (s.result (j + 1)) = true ∧ j + 1 < p.maxAttempts
  · obtain ⟨hretried, hmore⟩ := hgoes
    obtain ⟨k, ⟨hlow, hhigh⟩, hall, hstop, hrun⟩ := exists_run_executeFrom p s hmore
    refine ⟨k, ⟨Nat.lt_of_succ_lt hlow, hhigh⟩, fun i hi hik => ?_, hstop, ?_⟩
    · rcases Nat.eq_or_lt_of_le hi with rfl | hlater
      · exact hretried
      · exact hall i hlater hik
    · rw [run_executeFrom_of_retried hretried hmore, hrun]
  · refine ⟨j + 1, ⟨Nat.lt_succ_self j, hj⟩, fun i hi hik => absurd hik (by omega), fun hmore => ?_,
      run_executeFrom_of_last fun hretried => ?_⟩
    · exact Bool.eq_false_iff.mpr fun hretried => hgoes ⟨hretried, hmore⟩
    · exact Nat.le_antisymm hj (Nat.not_lt.mp fun hmore => hgoes ⟨hretried, hmore⟩)
termination_by p.maxAttempts - j

/-- A retry against a script.  It makes the attempts one after another up to the first one that does
not end in a retryable failure, or as many as are allowed; between two of them it sleeps once,
for the spread delay of the schedule, and after the last one it does nothing.  It ends with what
the last attempt gave, and is exhausted only if all attempts ended in retryable failures. -/
theorem execute_follows_script (p : RetryPolicy) (hsome : 1 ≤ p.maxAttempts) (s : Script α) :
    ∃ k, (1 ≤ k ∧ k ≤ p.maxAttempts) ∧
      (∀ i, 1 ≤ i → i < k → isRetried (s.result i) = true) ∧
      (k < p.maxAttempts → isRetried (s.result k) = false) ∧
      p.execute.run s.answer .blank =
        (p.ending (s.result k),
          ⟨p.rounds s (k - 1) ++ [.attempt k], k, p.rolledBy s (k - 1)⟩) ∧
      (p.rounds s (k - 1) ++ [Act.attempt k]).countP Act.isSleep = k - 1 := by
  obtain ⟨k, ⟨hlow, hhigh⟩, hall, hstop, hrun⟩ := exists_run_executeFrom p s hsome
  refine ⟨k, ⟨hlow, hhigh⟩, hall, hstop, hrun.trans ?_, ?_⟩
  · rw [ended, Nat.sub_add_cancel hlow]
  · rw [List.countP_append, countP_rounds]
    rfl

/-- A failure that must not be tried again, at the last of three attempts: it is not reported as
exhaustion, and there is no sleep after it. -/
theorem execute_follows_script_fatal_last :
    let p : RetryPolicy := ⟨3, .exponential (.ofMillis 100) (.ofSecs 1), .none⟩
    let busy : Failure := .call (.plain "busy")
    let s : Script Unit :=
      ⟨fun i => .ok (.failure (if i < 3 then .retryable else .fatal true) busy), fun _ => 0⟩
    1 ≤ p.maxAttempts ∧
      p.execute.run s.answer .blank =
        (.error (.fatal busy), ⟨[.attempt 1, .sleep (.ofMillis 100), .attempt 2,
          .sleep (.ofMillis 200), .attempt 3], 3, 0⟩) := by
  intro p busy s
  have hsome : 1 ≤ p.maxAttempts := by decide
  obtain ⟨k, ⟨hlow, hhigh⟩, -, hstop, hrun, -⟩ := execute_follows_script p hsome s
  have hthree : k = 3 := by
    refine Nat.le_antisymm hhigh (Nat.not_lt.mp fun hless => ?_)
    have hretried : isRetried (s.result k) = true := by
      show Verdict.isRetryable (if k < 3 then .retryable else .fatal true) = true
      rw [if_pos hless]
      rfl
    cases hretried.symm.trans (hstop hless)
  subst hthree
  exact ⟨hsome, hrun⟩

end RetryPolicy

end FlowControl
