import FlowControl.Proofs.Call.GuardedCall
import FlowControl.Proofs.Transcript

/-!
# What an error tells about the attempts

A log is kept of how the attempts ended and of the rejection that put an end to them.  A
retry can be logged by the answers to its own questions, a guarded call by the answers of
the breaker and of the service, and a guarded call beside others by its past; all three give
the same log.

An error that comes from the retry tells the attempts as they were.  A rejection by the
breaker tells of no attempt, and it may come after attempts: the failures of the call itself, or
what others do to the circuit while it sleeps, can open it.  So what an error says of the
attempts is right unless it is a rejection that came after a call.
-/

namespace FlowControl

/-- How the attempts so far ended, the latest first, each with its failure if it failed; and the
error that took the place of another attempt. -/
structure AttemptLog where
  ends : List (Option Failure)
  refusal? : Option ResilienceError

/-- The failure with which an attempt ended. -/
def AttemptLog.failureOf {α : Type} : Except Failure α → Option Failure
  | .ok _ => none
  | .error failure => some failure

namespace AttemptLog

variable {α : Type}

/-- No attempt yet. -/
def empty : AttemptLog := ⟨[], none⟩

/-- The number of attempts that have ended. -/
def made (log : AttemptLog) : Nat := log.ends.length

/-- Another attempt has ended. -/
def attempted (log : AttemptLog) (failure? : Option Failure) : AttemptLog :=
  { log with ends := failure? :: log.ends }

/-- Another attempt was not made. -/
def refused (log : AttemptLog) (error : ResilienceError) : AttemptLog :=
  { log with refusal? := some error }

/-- Notes what a retry asked and was answered. -/
def noteRetry (log : AttemptLog) : Exchange (Retry.interface α) → AttemptLog
  | ⟨.operate _, .ok (.success _)⟩ => log.attempted none
  | ⟨.operate _, .ok (.failure _ failure)⟩ => log.attempted (some failure)
  | ⟨.operate _, .error error⟩ => log.refused error
  | _ => log

/-- Notes what a guarded call asked and was answered. -/
def noteCall (log : AttemptLog) : Exchange (Wrapper.interface α) → AttemptLog
  | ⟨.acquire, .error remaining⟩ => log.refused (.circuitOpen remaining)
  | ⟨.call .., result⟩ => log.attempted (failureOf result)
  | _ => log

/-- Notes what happened to a guarded call. -/
def noteMoment (log : AttemptLog) : CallMoment α → AttemptLog
  | .refused remaining => log.refused (.circuitOpen remaining)
  | .finished result => log.attempted (failureOf result)
  | _ => log

/-- Does a result tell of these attempts?  An error of its own tells the failure of the last one,
and their number if they ran out. -/
inductive Explains (log : AttemptLog) : Except ResilienceError α → Prop
  | succeeded (value : α) : Explains log (.ok value)
  | refused {error : ResilienceError} (h : log.refusal? = some error) :
      Explains log (.error error)
  | exhausted {failure : Failure} (h : log.ends.head? = some (some failure)) :
      Explains log (.error (.exhausted log.made failure))
  | fatal {failure : Failure} (h : log.ends.head? = some (some failure)) :
      Explains log (.error (.fatal failure))

/-- An error of the retry names the failure of the last attempt, and tells of as many attempts as
there were, if it tells how many. -/
theorem Explains.of_not_isCircuitOpen {log : AttemptLog} {e : ResilienceError}
    (h : log.Explains (.error e : Except ResilienceError α))
    (hrefusal : ∀ error, log.refusal? = some error → error.isCircuitOpen = true)
    (hopen : e.isCircuitOpen = false) :
    ∃ failure, log.ends.head? = some (some failure) ∧ e.last? = some failure ∧
      ∀ k, e.attempts? = some k → k = log.made := by
  cases h with
  | refused h =>
      rw [hrefusal e h] at hopen
      cases hopen
  | @exhausted failure h =>
      refine ⟨failure, h, rfl, ?_⟩
      rintro _ ⟨⟩
      rfl
  | @fatal failure h => exact ⟨failure, h, rfl, nofun⟩

/-! ## Programs -/

/-- A spread of the delay is not logged. -/
theorem ends_apply (j : Jitter) (delay : Duration) (log : AttemptLog) :
    (j.apply (Retry.roll : Retry.Program α UInt64) delay).Ends noteRetry
      (fun log' _ => log' = log) log := by
  refine (Retry.asks_apply j delay).ends ?_
  rintro _ held rfl answer log
  rfl

/-- A retry that counts its attempts right ends with what they were. -/
theorem ends_executeFrom (p : RetryPolicy) (attempt : Nat) {log : AttemptLog}
    (hmade : log.made + 1 = attempt) :
    (p.executeFrom attempt : Retry.Program α (Except ResilienceError α)).Ends noteRetry
      Explains log := by
  rw [RetryPolicy.executeFrom]
  rintro (error | value | ⟨verdict, failure⟩)
  · exact .refused rfl
  · exact .succeeded value
  · show Routine.Ends noteRetry Explains (if _ then _ else if _ then _ else _) _
    split
    · exact fun _ => .fatal rfl
    · split
      · intro _
        rw [← hmade]
        exact .exhausted rfl
      · refine Routine.Ends.bind ((ends_apply p.jitter _ _).weaken ?_)
        rintro _ delay rfl _ _
        exact ends_executeFrom p (attempt + 1) (congrArg (· + 1) hmade)
termination_by p.maxAttempts - attempt

/-- An attempt under the guard of a breaker logs what it answers to the retry. -/
theorem ends_attempt (w : Wrapper) (target number : Nat) (log : AttemptLog) :
    (w.attempt target number : Wrapper.Program α (Except ResilienceError (Outcome α))).Ends
      noteCall (fun log' answer => log' = log.noteRetry ⟨.operate number, answer⟩) log := by
  rintro (remaining | permit)
  · exact fun _ => rfl
  · rintro (failure | value)
    · exact fun _ _ => rfl
    · exact fun _ => rfl

theorem ends_answer (w : Wrapper) (target : Nat) (ask : Retry.Ask) (log : AttemptLog) :
    (w.answer target ask : Wrapper.Program α (ask.Answer α)).Ends noteCall
      (fun log' answer => log' = log.noteRetry ⟨ask, answer⟩) log := by
  cases ask with
  | operate number => exact ends_attempt w target number log
  | sleep length => exact fun _ => rfl
  | roll => exact fun _ => rfl
  | note event => exact fun _ => rfl

/-- A guarded call ends with what its attempts were. -/
theorem ends_invoke (w : Wrapper) (target : Nat) :
    (w.invoke target : Wrapper.Program α (Except ResilienceError α)).Ends noteCall Explains
      empty :=
  (ends_executeFrom w.retry 1 rfl).interpret (ends_answer w target)

end AttemptLog

/-! ## A guarded call beside others -/

/-- The result of an attempt that is over. -/
def CallMoment.result? {α : Type} : CallMoment α → Option (Except Failure α)
  | .finished result => some result
  | _ => none

namespace AttemptLog

variable {α : Type} {past : List (CallMoment α)} {error : ResilienceError}

/-- The log of a past. -/
def ofPast (past : List (CallMoment α)) : AttemptLog :=
  past.foldr (fun e log => log.noteMoment e) empty

theorem ends_ofPast (past : List (CallMoment α)) :
    (ofPast past).ends = (past.filterMap CallMoment.result?).map failureOf := by
  induction past with
  | nil => rfl
  | cons e past ih =>
      cases e with
      | finished result => exact congrArg (failureOf result :: ·) ih
      | _ => exact ih

/-- Only the breaker refuses attempts. -/
theorem isCircuitOpen_of_refusal (h : (ofPast past).refusal? = some error) :
    error.isCircuitOpen = true := by
  induction past with
  | nil => cases h
  | cons e past ih =>
      cases e with
      | refused remaining =>
          cases h
          rfl
      | _ => exact ih h

/-- What a program asks next, or ends with, is not logged. -/
theorem ofPast_ofNext (p : Wrapper.Program α (Except ResilienceError α))
    (past : List (CallMoment α)) : ofPast (CallMoment.ofNext p ++ past) = ofPast past := by
  cases p with
  | done result => rfl
  | ask ask held resume => cases ask <;> rfl

end AttemptLog

namespace GuardedCall

open AttemptLog

variable {α : Type} {s : GuardedCall α} {ask : Wrapper.Ask}

/-- The answers to a call are logged as they happen, and only a call that is being made ends. -/
theorem ofPast_answer (s : GuardedCall α) (latency : Duration) (result : Except CallError α)
    (word : UInt64) (ask : Wrapper.Ask) :
    let answered := s.answer latency result word ask
    ofPast (answered.2.2 ++ s.past) = (ofPast s.past).noteCall ⟨ask, answered.1⟩ ∧
      answered.2.2.countP CallMoment.isCall = 0 := by
  cases ask with
  | acquire =>
      cases hanswer : (s.circuit.breaker.tryAcquire s.circuit.now).answer with
      | ok permit | error remaining =>
          simp only [answer, hanswer]
          exact ⟨rfl, rfl⟩
  | settle permit failed =>
      cases hown : s.own? permit with
      | none | some k =>
          simp only [answer, hown]
          exact ⟨rfl, rfl⟩
  | ready target | call target limit | sleep length | roll | note event => exact ⟨rfl, rfl⟩

/-- Only an answer to a call ends an attempt. -/
theorem made_noteCall (log : AttemptLog) (held : List Permit)
    (resume : ask.Answer α → Wrapper.Program α (Except ResilienceError α))
    (answer : ask.Answer α) :
    (log.noteCall ⟨ask, answer⟩ : AttemptLog).made =
      log.made + (CallMoment.ofNext (.ask ask held resume)).countP CallMoment.isCall := by
  cases ask with
  | acquire => cases answer <;> rfl
  | call target limit => rfl
  | ready target | settle permit failed | sleep length | roll | note event => rfl

/-- What a guarded call has left to do will end with what the log of its past tells then, and the
calls made are those in the log and the one that is being made. -/
structure Logged (s : GuardedCall α) : Prop where
  ends : ∀ p, s.task = some p → p.Ends noteCall Explains (ofPast s.past)
  calls : ∀ p, s.task = some p → s.past.countP CallMoment.isCall =
    (ofPast s.past).made + (CallMoment.ofNext p).countP CallMoment.isCall

theorem logged_start (w : Wrapper) (target : Nat) (c : Circuit) :
    Logged (start w target c : GuardedCall α) where
  ends p hp := by
    cases hp
    exact ends_invoke w target
  calls p hp := by
    cases hp
    -- The first question is one for a permit.
    show 0 = 0 + _
    rw [Wrapper.invoke, RetryPolicy.execute, RetryPolicy.executeFrom]
    rfl

/-- Nothing is expected of a call that was dropped. -/
theorem logged_of_gone (h : s.task = none) : s.Logged where
  ends p hp := by
    rw [h] at hp
    cases hp
  calls p hp := by
    rw [h] at hp
    cases hp

theorem Logged.go (h : s.Logged) (latency : Duration) (result : Except CallError α)
    (word : UInt64) : (s.step (.go latency result word)).Logged := by
  cases htask : s.task with
  | none => simpa only [step, htask] using h
  | some p =>
      cases p with
      | done result => simpa only [step, htask] using h
      | ask ask held resume =>
          -- Its question is answered: what is left ends as before, by the log after this answer.
          have hends := h.ends _ htask
          have hcalls := h.calls _ htask
          obtain ⟨hlog, hnone⟩ := ofPast_answer s latency result word ask
          simp only [step, htask, goOn]
          generalize s.answer latency result word ask = answered at hlog hnone
          obtain ⟨answer, circuit, moments⟩ := answered
          have hmade := made_noteCall (ofPast s.past) held resume answer
          constructor
          · rintro _ ⟨⟩
            rw [ofPast_ofNext, hlog]
            exact hends answer
          · rintro _ ⟨⟩
            rw [ofPast_ofNext, hlog, hmade, ← hcalls, List.countP_append, List.countP_append,
              hnone]
            omega

theorem task_foldl_free (s : GuardedCall α) (held : List Permit) :
    (held.foldl free s).task = s.task := by
  induction held generalizing s with
  | nil => rfl
  | cons permit held ih =>
      refine (ih (s.free permit)).trans ?_
      unfold free
      split <;> rfl

theorem Logged.drop (h : s.Logged) : (s.step .drop).Logged := by
  cases htask : s.task with
  | none => simpa only [step, htask] using h
  | some p =>
      cases p with
      | done result => simpa only [step, htask] using h
      | ask ask held resume =>
          by_cases hmay : ask.mayDrop = true
          · refine logged_of_gone ?_
            simp only [step, htask, hmay, if_true]
            exact task_foldl_free _ held
          · simpa only [step, htask, hmay, Bool.false_eq_true, if_false] using h

theorem Logged.step (h : s.Logged) (a : Act α) : (s.step a).Logged := by
  cases a with
  | other a =>
      simp only [GuardedCall.step]
      split
      · exact h
      · exact ⟨h.ends, h.calls⟩
  | go latency result word => exact h.go latency result word
  | drop => exact h.drop

theorem Logged.run (h : s.Logged) (acts : List (Act α)) : (s.run acts).Logged := by
  induction acts generalizing s with
  | nil => exact h
  | cons a acts ih => exact ih (h.step a)

/-! ## The theorem -/

/-- The error that the call ended with. -/
def error? (s : GuardedCall α) : Option ResilienceError :=
  match s.task with
  | some (.done (.error e)) => some e
  | _ => none

theorem task_of_error? {e : ResilienceError} (h : s.error? = some e) :
    s.task = some (.done (.error e)) := by
  unfold error? at h
  split at h
  · next htask =>
    cases h
    exact htask
  · cases h

/-- What an error tells of the attempts, however they end and whatever others do to the circuit
meanwhile.  An error that is not a rejection names the failure of the last attempt and tells of as
many attempts as calls were made, if it tells how many.  A rejection tells of no attempt.  So the
number is right, and a failure is missing only if no call was made, exactly if there was no call
before a rejection. -/
theorem error_tells_attempts_iff (w : Wrapper) (target : Nat) (c : Circuit) (acts : List (Act α))
    (e : ResilienceError)
    (herror : ((start w target c).run acts).error? = some e) :
    let past := ((start w target c).run acts).past
    let calls := past.countP CallMoment.isCall
    (e.isCircuitOpen = false → 0 < calls ∧ (∀ k, e.attempts? = some k → k = calls) ∧
        ∃ failure, e.last? = some failure ∧
          (past.filterMap CallMoment.result?).head? = some (.error failure)) ∧
      ((∀ k, e.attempts? = some k → k = calls) ∧ (e.last? = none → calls = 0) ↔
        (e.isCircuitOpen = true → calls = 0)) := by
  intro past calls
  have hend := task_of_error? herror
  have hlogged : ((start w target c).run acts).Logged := (logged_start w target c).run acts
  have hmade : calls = (ofPast past).made := hlogged.calls _ hend
  have hends : (ofPast past).ends = (past.filterMap CallMoment.result?).map failureOf :=
    ends_ofPast past
  have htells : e.isCircuitOpen = false → 0 < calls ∧ (∀ k, e.attempts? = some k → k = calls) ∧
      ∃ failure, e.last? = some failure ∧
        (past.filterMap CallMoment.result?).head? = some (.error failure) := by
    intro hopen
    obtain ⟨failure, hhead, hlast, hnumber⟩ :=
      (hlogged.ends _ hend).of_not_isCircuitOpen (fun _ => isCircuitOpen_of_refusal) hopen
    rw [← hmade] at hnumber
    refine ⟨?_, hnumber, failure, hlast, ?_⟩
    · rw [hmade]
      exact List.length_pos_of_mem (List.mem_of_mem_head? hhead)
    · rw [hends, List.head?_map] at hhead
      obtain ⟨result, hresult, hfailure⟩ := Option.map_eq_some_iff.mp hhead
      cases result with
      | ok value => cases hfailure
      | error failure' =>
          cases hfailure
          exact hresult
  refine ⟨htells, ?_⟩
  cases hopen : e.isCircuitOpen with
  | false =>
      obtain ⟨-, hnumber, failure, hlast, -⟩ := htells hopen
      refine ⟨fun _ => nofun, fun _ => ⟨hnumber, ?_⟩⟩
      rw [hlast]
      nofun
  | true =>
      cases e with
      | circuitOpen remaining =>
          refine ⟨fun h _ => h.2 rfl, fun h => ⟨?_, fun _ => h rfl⟩⟩
          rintro _ ⟨⟩
          exact (h rfl).symm
      | exhausted attempts last | fatal last => cases hopen

/-- The only attempt that is made fails and opens the breaker, which rejects the next one.  The
error tells of no attempt and of no failure. -/
theorem error_tells_attempts_wrongly :
    let w : Wrapper :=
      ⟨"movies", ⟨2, .standard, .none⟩, .standard, ClassifierConfig.standard.classify⟩
    let c := Circuit.start ⟨⟨1, 1⟩, ⟨6, 10⟩, .ofSecs 5⟩ 0
    let down : CallError := .status .unavailable "down"
    let acts : List (Act Unit) := List.replicate 8 (.go .zero (.error down) 0)
    let s := (start w 0 c).run acts
    let e : ResilienceError := .circuitOpen (.ofSecs 5)
    s.error? = some e ∧ s.past.countP CallMoment.isCall = 1 ∧ e.attempts? = some 0 ∧
      e.last? = none ∧
      ¬((∀ k, e.attempts? = some k → k = s.past.countP CallMoment.isCall) ∧
        (e.last? = none → s.past.countP CallMoment.isCall = 0)) := by
  intro w c down acts s e
  have herror : s.error? = some e := by decide +kernel
  have hcalls : s.past.countP CallMoment.isCall = 1 := by decide +kernel
  obtain ⟨-, hiff⟩ := error_tells_attempts_iff w 0 c acts e herror
  refine ⟨herror, hcalls, rfl, rfl, fun hclaim => ?_⟩
  have hnone : s.past.countP CallMoment.isCall = 0 := hiff.mp hclaim rfl
  rw [hcalls] at hnone
  cases hnone

end GuardedCall

end FlowControl
