import FlowControl.Classifier

/-!
# The last change of a classifier decides

A change of a configuration rules on some failures and says nothing of the others.  A failure
gets the verdict of the last change that rules on it, or the verdict of the configuration that
was changed if none does.  This holds also if a code was in both sets of that configuration, where
the set of codes to retry takes precedence: a change that puts a code into one of the sets takes
it out of the other.

Nothing is said about how a configuration is read; every one is a possible start.
-/

namespace FlowControl.ClassifierConfig

variable {config : ClassifierConfig} {failure : Failure}

/-- The verdict of a change on a failure, if it rules on it. -/
def Change.ruling? : Change → Failure → Option Verdict
  | .retryOn code, .call error => if error.code? = some code then some .retryable else none
  | .fatalTripping code, .call error =>
    if error.code? = some code then some (.fatal true) else none
  | .timeout .retryable, .timedOut .. => some .retryable
  | .timeout .fatal, .timedOut .. => some (.fatal true)
  | .unknownTrips trips, .call error => if error.code? = none then some (.fatal trips) else none
  | _, _ => none

/-! ## One change -/

variable {code? : Option StatusCode}

/-- A code to retry is retried, whether or not it was in either set before; other errors are not
concerned. -/
theorem verdictOn_retryOn (config : ClassifierConfig) (code : StatusCode) :
    (config.retryOn code).verdictOn code? =
      if code? = some code then .retryable else config.verdictOn code? := by
  cases code? with
  | none => rfl
  | some c =>
      by_cases h : c = code
      · simp [verdictOn, retryOn, h]
      · simp [verdictOn, retryOn, h, bne_iff_ne.mpr h]

/-- A code that is made fatal is not retried any more, and counts. -/
theorem verdictOn_fatalTripping (config : ClassifierConfig) (code : StatusCode) :
    (config.fatalTripping code).verdictOn code? =
      if code? = some code then .fatal true else config.verdictOn code? := by
  cases code? with
  | none => rfl
  | some c =>
      by_cases h : c = code
      · simp [verdictOn, fatalTripping, h]
      · simp [verdictOn, fatalTripping, h, beq_eq_false_iff_ne.mpr h]

/-- Only errors without a code are concerned by whether they count. -/
theorem verdictOn_unknownTrips (config : ClassifierConfig) (trips : Bool) :
    (config.change (.unknownTrips trips)).verdictOn code? =
      if code? = none then .fatal trips else config.verdictOn code? := by
  cases code? with
  | none | some c => rfl

/-- A change decides about the failures that it rules on, and leaves all other verdicts. -/
theorem classify_change (config : ClassifierConfig) (change : Change) (failure : Failure) :
    (config.change change).classify failure =
      (change.ruling? failure).getD (config.classify failure) := by
  cases failure with
  | timedOut elapsed limit =>
      cases change with
      | timeout classification => cases classification <;> rfl
      | retryOn code | fatalTripping code | unknownTrips trips => rfl
  | call error =>
      cases change with
      | retryOn code =>
          refine (verdictOn_retryOn config code).trans ?_
          simp only [Change.ruling?]
          split <;> rfl
      | fatalTripping code =>
          refine (verdictOn_fatalTripping config code).trans ?_
          simp only [Change.ruling?]
          split <;> rfl
      | timeout classification => cases classification <;> rfl
      | unknownTrips trips =>
          refine (verdictOn_unknownTrips config trips).trans ?_
          simp only [Change.ruling?]
          split <;> rfl

/-! ## Changes in order -/

/-- The last ruling stands. -/
theorem classify_changeAll (config : ClassifierConfig) (changes : List Change)
    (failure : Failure) :
    (config.changeAll changes).classify failure =
      (changes.filterMap fun change => change.ruling? failure).getLastD
        (config.classify failure) := by
  -- The verdict so far is that of the configuration that the first change leaves.
  induction changes generalizing config with
  | nil => rfl
  | cons change changes ih =>
      have hrest := ih (config.change change)
      rw [classify_change] at hrest
      rw [changeAll, List.foldl_cons]
      refine hrest.trans ?_
      let rules := fun change : Change => change.ruling? failure
      cases hruling : change.ruling? failure with
      | none => rw [List.filterMap_cons_none (f := rules) hruling, Option.getD_none]
      | some verdict =>
          rw [List.filterMap_cons_some (f := rules) hruling, List.getLastD_cons, Option.getD_some]

/-- What is tried again counts against the breaker. -/
theorem tripsBreaker_of_isRetryable (config : ClassifierConfig) (failure : Failure) :
    (config.classify failure).isRetryable = true →
      (config.classify failure).tripsBreaker = true := by
  -- The only verdict that allows another try is `retryable`.
  cases failure with
  | timedOut elapsed limit =>
      simp only [classify]
      split
      · exact fun _ => rfl
      · exact nofun
  | call error =>
      simp only [classify, verdictOn]
      split
      · split
        · exact fun _ => rfl
        · exact nofun
      · exact nofun

/-- Whatever configuration is changed, and by whatever changes: a failure gets the verdict of the
last change that rules on it, and the verdict of the starting configuration if none does.  So the
last change that names a code decides about it, the last one for timeouts about timeouts, and no
change has a say in anything else.  What is tried again always counts against the breaker. -/
theorem last_change_decides (config : ClassifierConfig) (changes : List Change)
    (failure : Failure) :
    let after := config.changeAll changes
    after.classify failure =
        (changes.filterMap fun change => change.ruling? failure).getLastD
          (config.classify failure) ∧
      ((after.classify failure).isRetryable = true →
        (after.classify failure).tripsBreaker = true) := by
  intro after
  exact ⟨classify_changeAll config changes failure, tripsBreaker_of_isRetryable after failure⟩

/-- A code that starts in both sets is made fatal and then retried again, another one is retried
and then made fatal; errors of other codes and errors without a code are judged as before. -/
theorem last_change_decides_overlapping :
    let config : ClassifierConfig :=
      ⟨.ofList [.notFound, .aborted], .ofList [.notFound], .retryable, false⟩
    let after := config.changeAll [.fatalTripping .notFound, .retryOn .internal,
      .timeout .fatal, .fatalTripping .internal, .retryOn .notFound]
    let gone : Failure := .call (.status .notFound "gone")
    after.classify gone = .retryable ∧ (after.classify gone).isRetryable = true ∧
      (after.classify gone).tripsBreaker = true ∧
      after.classify (.call (.status .internal "broken")) = .fatal true ∧
      after.classify (.call (.status .aborted "lost")) = .retryable ∧
      after.classify (.call (.plain "refused")) = .fatal false ∧
      after.classify (.timedOut (.ofSecs 2) (.ofSecs 1)) = .fatal true := by
  intro config after gone
  have hlast := fun failure => (last_change_decides config [.fatalTripping .notFound,
    .retryOn .internal, .timeout .fatal, .fatalTripping .internal, .retryOn .notFound] failure).1
  have hgone : after.classify gone = .retryable := (hlast gone).trans (by decide)
  have hretried : (after.classify gone).isRetryable = true := by rw [hgone]; rfl
  refine ⟨hgone, hretried, ?_, (hlast _).trans (by decide), (hlast _).trans (by decide),
    (hlast _).trans (by decide), (hlast _).trans (by decide)⟩
  exact (last_change_decides config _ gone).2 hretried

end FlowControl.ClassifierConfig
