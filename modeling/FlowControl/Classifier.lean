import FlowControl.Failure
import FlowControl.Json.Record

/-!
# Which failures are tried again, and which count against the breaker

A classifier looks at the status code of a failure, never at its wording.  Codes
to retry always count against the breaker; other codes are fatal and count only
if they are listed for it.  When a code is moved to one list it leaves the other.
-/

namespace FlowControl

/-- May a failed attempt be tried again? -/
inductive Classification where
  | retryable
  | fatal
  deriving DecidableEq, Repr

namespace Classification

/-- The name of a classification in settings. -/
def name : Classification → String
  | .retryable => "retryable"
  | .fatal => "fatal"

/-- The classifications by name. -/
def named : List (String × Classification) :=
  [("retryable", .retryable), ("fatal", .fatal)]

/-- A classification as a settings text gives it. -/
def read : Json.Reader Classification := Json.variant named

end Classification

/-- What a classifier decides about a failure. -/
structure Verdict where
  classification : Classification
  tripsBreaker : Bool
  deriving DecidableEq, Repr

namespace Verdict

/-- To be tried again, and counted against the breaker. -/
def retryable : Verdict := ⟨.retryable, true⟩

/-- Not to be tried again. -/
def fatal (tripsBreaker : Bool) : Verdict := ⟨.fatal, tripsBreaker⟩

/-- May the attempt be tried again? -/
def isRetryable (v : Verdict) : Bool := v.classification == .retryable

end Verdict

/-- A decision on every failure. -/
abbrev Classifier := Failure → Verdict

/-- The result of one attempt, with the verdict on its failure. -/
inductive Outcome (α : Type) where
  | success (value : α)
  | failure (verdict : Verdict) (failure : Failure)

namespace Outcome

variable {α : Type}

/-- Classifies the result of an attempt. -/
def ofResult (classify : Classifier) : Except Failure α → Outcome α
  | .ok value => .success value
  | .error reason => .failure (classify reason) reason

/-- Did the attempt succeed? -/
def isSuccess : Outcome α → Bool
  | .success _ => true
  | .failure .. => false

/-- The verdict on a failed attempt. -/
def verdict? : Outcome α → Option Verdict
  | .success _ => none
  | .failure verdict _ => some verdict

end Outcome

/-- A set of status codes, listed in the order of their numbers. -/
structure CodeSet where
  codes : List StatusCode
  codes_eq : StatusCode.all.filter codes.contains = codes
  deriving DecidableEq, Repr

namespace CodeSet

@[ext] theorem ext {s t : CodeSet} (h : s.codes = t.codes) : s = t := by
  cases s
  cases t
  simp_all

/-- The set of the codes with a property. -/
def satisfying (p : StatusCode → Bool) : CodeSet where
  codes := StatusCode.all.filter p
  codes_eq := List.filter_congr fun c hc => by
    rw [Bool.eq_iff_iff, List.contains_iff_mem, List.mem_filter]
    simp [hc]

/-- Is the code in the set? -/
def contains (s : CodeSet) (c : StatusCode) : Bool := s.codes.contains c

/-- The set of the listed codes. -/
def ofList (cs : List StatusCode) : CodeSet := satisfying cs.contains

/-- The set with a code added. -/
def insert (s : CodeSet) (c : StatusCode) : CodeSet := satisfying fun x => x == c || s.contains x

/-- The set with a code removed. -/
def erase (s : CodeSet) (c : StatusCode) : CodeSet := satisfying fun x => x != c && s.contains x

@[simp] theorem contains_satisfying (p : StatusCode → Bool) (c : StatusCode) :
    (satisfying p).contains c = p c := by
  simp only [contains, satisfying]
  rw [Bool.eq_iff_iff, List.contains_iff_mem, List.mem_filter]
  simp [StatusCode.mem_all]

@[simp] theorem contains_insert (s : CodeSet) (c x : StatusCode) :
    (s.insert c).contains x = (x == c || s.contains x) := contains_satisfying ..

@[simp] theorem contains_erase (s : CodeSet) (c x : StatusCode) :
    (s.erase c).contains x = (x != c && s.contains x) := contains_satisfying ..

/-- The names of the codes in alphabetical order. -/
def names (s : CodeSet) : List String :=
  (s.codes.map StatusCode.name).mergeSort (fun a b => decide (a ≤ b))

/-- A set as a settings text gives it: a list, in which a code may be repeated. -/
def read : Json.Reader CodeSet := fun s =>
  (Json.list StatusCode.read s).map fun (cs, rest) => (ofList cs, rest)

end CodeSet

/-- Which codes are retried, which fatal codes count against the breaker, how a
timeout is classified, and whether an error without a code counts. -/
structure ClassifierConfig where
  retryable : CodeSet
  fatalTripsBreaker : CodeSet
  timeout : Classification
  unknownTripsBreaker : Bool
  deriving DecidableEq, Repr

namespace ClassifierConfig

/-- Transient codes and timeouts are retried; no fatal code counts; unknown errors do. -/
def standard : ClassifierConfig where
  retryable := .ofList [.unavailable, .deadlineExceeded, .resourceExhausted, .aborted]
  fatalTripsBreaker := .ofList []
  timeout := .retryable
  unknownTripsBreaker := true

instance : Inhabited ClassifierConfig := ⟨standard⟩

/-- Retry a code. -/
def retryOn (config : ClassifierConfig) (code : StatusCode) : ClassifierConfig :=
  { config with
    fatalTripsBreaker := config.fatalTripsBreaker.erase code
    retryable := config.retryable.insert code }

/-- Do not retry a code, and count it against the breaker. -/
def fatalTripping (config : ClassifierConfig) (code : StatusCode) : ClassifierConfig :=
  { config with
    retryable := config.retryable.erase code
    fatalTripsBreaker := config.fatalTripsBreaker.insert code }

/-- Classify timeouts. -/
def withTimeout (config : ClassifierConfig) (c : Classification) : ClassifierConfig :=
  { config with timeout := c }

/-- One change of a configuration. -/
inductive Change where
  | retryOn (code : StatusCode)
  | fatalTripping (code : StatusCode)
  | timeout (classification : Classification)
  | unknownTrips (trips : Bool)
  deriving DecidableEq, Repr

/-- Makes one change. -/
def change (config : ClassifierConfig) : Change → ClassifierConfig
  | .retryOn code => config.retryOn code
  | .fatalTripping code => config.fatalTripping code
  | .timeout c => config.withTimeout c
  | .unknownTrips trips => { config with unknownTripsBreaker := trips }

/-- Makes changes in order. -/
def changeAll (config : ClassifierConfig) (changes : List Change) : ClassifierConfig :=
  changes.foldl change config

/-- The verdict on an error with this code, if it has one. -/
def verdictOn (config : ClassifierConfig) : Option StatusCode → Verdict
  | some code =>
    if config.retryable.contains code then .retryable
    else .fatal (config.fatalTripsBreaker.contains code)
  | none => .fatal config.unknownTripsBreaker

/-- The classifier of a configuration. -/
def classify (config : ClassifierConfig) : Classifier
  | .timedOut .. =>
    match config.timeout with
    | .retryable => .retryable
    | .fatal => .fatal true
  | .call error => config.verdictOn error.code?

/-- How a configuration is given in a settings text. -/
def shape : Json.Shape ClassifierConfig where
  name := "ClassifierConfig"
  fields := [
    Json.field "retryable" CodeSet.read fun v c => { c with retryable := v },
    Json.field "fatal_trips_breaker" CodeSet.read fun v c => { c with fatalTripsBreaker := v },
    Json.field "timeout" Classification.read fun v c => { c with timeout := v },
    Json.field "unknown_trips_breaker" Json.bool fun v c => { c with unknownTripsBreaker := v }]
  base := standard
  complete := false

/-- A configuration from the text of its settings; what is left out is standard. -/
def parse (s : String) : Except Json.Fault ClassifierConfig :=
  Json.readText shape.read s

end ClassifierConfig

/-- A classifier that retries exactly the errors of one wording, and counts timeouts. -/
def Classifier.byMessage (wording : String) : Classifier
  | .timedOut .. => .fatal true
  | .call error => if error.message = wording then .retryable else .fatal false

end FlowControl
