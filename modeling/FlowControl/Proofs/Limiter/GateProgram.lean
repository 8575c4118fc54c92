import FlowControl.Limiter.Gate
import FlowControl.Proofs.Limiter.LiveRegistry
import FlowControl.Proofs.Limiter.TokenLedger

/-!
# What a gate does with a request

A request with a caller gets the limiter of its key, takes one token, and is admitted or
turned away by the result of the take.  A request without a caller is passed on and asks
for nothing else.

The transcript of a request that has its answer shows how the take ended, and by that
alone how often the request was passed on, what it paid and whether it passed in spite of
a failure.  This holds whatever limiter the gate was given and whatever the answers were.
-/

namespace FlowControl

open Registry (Held ofLimiter)

namespace Gate

variable {α β γ σ : Type} {gate : Gate} {who : Identity} {token : String}

/-! ## Operations on registered limiters, asked by a gate -/

theorem ofRegistry_ask (question : Registry.interface.Request) (held : List Held)
    (resume : Registry.interface.Answer question → Registry.Program β) :
    ofRegistry (α := α) (.ask question held resume) =
      .ask (.registry question) held fun answer => ofRegistry (resume answer) := by
  have hheld := Routine.foldl_holding_ask (I := Registry.interface) (J := interface α) id held
    (.registry question) []
  have hlist : [] ++ held.map id = held := List.map_id held
  exact congrArg (Routine.bind · fun answer => ofRegistry (resume answer))
    (hheld.trans (congrArg (Routine.ask (I := interface α) _ · .done) hlist))

theorem ofRegistry_ofLimiter_ask (h : Handle) (question : Limiter.Ask) (guards : List Guard)
    (resume : question.Answer → Limiter.Program β) :
    ofRegistry (α := α) ((ofLimiter (.ask question guards resume)).holding (Held.busy h)) =
      .ask (.registry (.limiter question)) (guards.map Held.guard ++ [Held.busy h]) fun answer =>
        ofRegistry ((ofLimiter (resume answer)).holding (Held.busy h)) := by
  rw [Registry.ofLimiter_ask]
  exact ofRegistry_ask _ _ _

theorem ofRegistry_bind (p : Registry.Program β) (next : β → Registry.Program γ) :
    ofRegistry (α := α) (p.bind next) = (ofRegistry p).bind fun b => ofRegistry (next b) :=
  Routine.interpret_bind p next

/-- A take on a registered limiter, as a gate asks for it: the limiter gets busy, its bucket is
worked on, the access is noted again, and the limiter is free. -/
theorem ofRegistry_take (h : Handle) (token : String) (n : UInt64) :
    ofRegistry (α := α) (h.take token n) =
      .ask (.registry (.enter h)) [] fun _ =>
        (ofRegistry ((ofLimiter (h.bucket.take token n)).holding (Held.busy h))).bind
          fun result => .ask (.registry (.touch h)) [.busy h] fun _ =>
            .ask (.registry (.leave h)) [.busy h] fun _ => .done result := by
  have htake : h.take token n = (Registry.markBusy h).bind fun _ =>
      ((ofLimiter (h.bucket.take token n)).holding (Held.busy h)).bind fun result =>
        ((Registry.noteAccess h).holding (Held.busy h)).bind fun _ =>
          (Registry.markFree h).bind fun _ => .done result := rfl
  rw [htake, ofRegistry_bind]
  exact congrArg (Routine.ask (I := interface α) _ _) (funext fun _ => ofRegistry_bind _ _)

end Gate

/-- Notes what a gate asked and was answered. -/
def Ledger.noteGate {α : Type} (l : Ledger) : Exchange (Gate.interface α) → Ledger
  | ⟨.registry (.limiter question), answer⟩ => l.note ⟨question, answer⟩
  | ⟨.limiter _ _, limiter⟩ => { l with bucket := some limiter.bucket }
  | ⟨.serve, _⟩ => { l with serves := l.serves + 1 }
  | _ => l

namespace Gate

variable {α β γ σ : Type} {gate : Gate} {who : Identity} {token : String}

/-- A program over the store is noted alike when it is asked through a gate. -/
theorem ends_ofLimiter {p : Limiter.Program β} {Q : Ledger → β → Prop} {l : Ledger} (h : Handle)
    (hp : p.Ends Ledger.note Q l) :
    (ofRegistry (α := α) ((ofLimiter p).holding (Held.busy h))).Ends Ledger.noteGate Q l := by
  induction p generalizing l with
  | done b => exact hp
  | ask question guards resume ih =>
      rw [ofRegistry_ofLimiter_ask]
      exact fun answer => ih answer (hp answer)

/-- So is a take on a registered limiter; its marks are not noted. -/
theorem ends_take (h : Handle) (token : String) (n : UInt64) {l : Ledger}
    (hbucket : l.bucket = some h.bucket) :
    (ofRegistry (α := α) (h.take token n)).Ends Ledger.noteGate
      (fun l' result => l.Paid l' (costOf n result)) l := by
  rw [ofRegistry_take]
  refine fun _ => Routine.Ends.bind
    ((ends_ofLimiter h (Bucket.ends_take hbucket token n)).weaken ?_)
  exact fun l' result hpaid _ _ => hpaid

/-! ## Admission -/

/-- Does a request pass in spite of how its take ended? -/
def failsOpen (gate : Gate) : Except LimitError Unit → Bool
  | .ok () => false
  | .error error => error.isBackendFailure && gate.policy == .letPass

/-- Does a request pass when its take ended like this? -/
def admits (gate : Gate) (result : Except LimitError Unit) : Bool :=
  result.isOk || gate.failsOpen result

theorem admits_iff {result : Except LimitError Unit} :
    gate.admits result = true ↔ result = .ok () ∨
      ∃ error, result = .error error ∧ error.isBackendFailure = true ∧
        gate.policy = .letPass := by
  cases result with
  | ok _ => simp [admits, Except.isOk, Except.toBool]
  | error error => simp [admits, failsOpen, Except.isOk, Except.toBool]

/-- What a gate does with a request when its take has ended. -/
def conclude (gate : Gate) (who : Identity) :
    Except LimitError Unit → Program α (Except Rejection α)
  | .ok () => pass
  | .error (.exceeded retryAfter) => .done (.error (.limited retryAfter))
  | .error error =>
    if gate.failsOpen (.error error) then
      (note (.failingOpen (gate.keyOf who) error)).bind fun _ => pass
    else
      (note (.rejecting (gate.keyOf who) error)).bind fun _ => .done (.error (.backend error))

theorem handle_of_unknown (hcaller : who.caller = "") (token : String) :
    gate.handle (α := α) who token = pass := by
  unfold handle
  rw [if_pos hcaller]

theorem handle_of_caller (hcaller : who.caller ≠ "") (token : String) :
    gate.handle (α := α) who token =
      (limiterFor (gate.keyOf who) gate.config).bind fun limiter =>
        (ofRegistry (limiter.take token 1)).bind (gate.conclude who) := by
  unfold handle
  rw [if_neg hcaller]
  refine congrArg (Routine.bind _) (funext fun limiter => congrArg (Routine.bind _) (funext ?_))
  rintro (error | _)
  · cases error <;> rfl
  · rfl

/-- Was a request answered without being passed on? -/
def turnsAway : Except Rejection α → Bool
  | .error (.limited _) | .error (.backend _) => true
  | _ => false

/-- Does a ledger show a take on this bucket with this result, and what the gate did then? -/
structure Shows (gate : Gate) (b : Bucket) (result : Except LimitError Unit) (l : Ledger)
    (outcome : Except Rejection α) : Prop where
  bucket : l.bucket = some b
  taken : l.taken = costOf 1 result
  failOpens : l.failOpens = (gate.failsOpen result).toNat
  serves : l.serves = (gate.admits result).toNat
  turnedAway : turnsAway outcome = true → gate.admits result = false

variable {b : Bucket} {l : Ledger}

/-- Passing a request on shows as one that is served. -/
theorem ends_pass (l : Ledger) :
    (pass (α := α)).Ends Ledger.noteGate
      (fun l' outcome => l' = { l with serves := l.serves + 1 } ∧ turnsAway outcome = false) l := by
  rintro (error | value)
  · exact ⟨rfl, rfl⟩
  · exact ⟨rfl, rfl⟩

/-- By the result of the take a request is admitted or turned away. -/
theorem ends_conclude (gate : Gate) (who : Identity) (result : Except LimitError Unit)
    (hbucket : l.bucket = some b) (htaken : l.taken = costOf 1 result) (hopens : l.failOpens = 0)
    (hserves : l.serves = 0) :
    (gate.conclude (α := α) who result).Ends Ledger.noteGate (gate.Shows b result) l := by
  have hadmits : ∀ error, gate.admits (.error error) = gate.failsOpen (.error error) :=
    fun error => Bool.false_or _
  cases result with
  | ok _ =>
      refine (ends_pass l).weaken ?_
      rintro l' outcome ⟨rfl, haway⟩
      exact ⟨hbucket, htaken, hopens, by rw [hserves]; rfl, by rw [haway]; nofun⟩
  | error error =>
      by_cases hexceeded : ∃ retryAfter, error = .exceeded retryAfter
      · obtain ⟨retryAfter, rfl⟩ := hexceeded
        exact ⟨hbucket, htaken, hopens, hserves, fun _ => rfl⟩
      · have hconclude : gate.conclude (α := α) who (.error error) =
            if gate.failsOpen (.error error) then
              (note (.failingOpen (gate.keyOf who) error)).bind fun _ => pass
            else
              (note (.rejecting (gate.keyOf who) error)).bind fun _ =>
                .done (.error (.backend error)) := by
          cases error with
          | exceeded retryAfter => exact absurd ⟨retryAfter, rfl⟩ hexceeded
          | _ => rfl
        rw [hconclude]
        cases hopen : gate.failsOpen (.error error) with
        | true =>
            intro _
            refine (ends_pass _).weaken ?_
            rintro l' outcome ⟨rfl, haway⟩
            refine ⟨hbucket, htaken, ?_, ?_, by rw [haway]; nofun⟩
            · rw [hopen]
              exact congrArg (· + 1) hopens
            · rw [hadmits, hopen]
              exact congrArg (· + 1) hserves
        | false =>
            intro _
            refine ⟨hbucket, htaken, ?_, ?_, fun _ => (hadmits error).trans hopen⟩
            · rw [hopen]
              exact hopens
            · rw [hadmits, hopen]
              exact hserves

/-- The transcript of a request with a caller up to its answer: it begins with a limiter and a take
on it, and the rest goes by the result of the take. -/
theorem along_handle {log : List (Exchange (interface α))} {outcome : Except Rejection α}
    (hcaller : who.caller ≠ "")
    (h : Routine.Along log (gate.handle who token) (.done outcome)) :
    ∃ limiter taken rest result,
      log = ⟨.limiter (gate.keyOf who) gate.config, limiter⟩ :: (taken ++ rest) ∧
      Routine.Along taken (ofRegistry (limiter.take token 1)) (.done result) ∧
      gate.Shows limiter.bucket result (log.foldl Ledger.noteGate .blank) outcome := by
  rw [handle_of_caller hcaller] at h
  cases h with
  | @step _ _ _ limiter log _ h =>
      have htwo : Routine.Along log ((ofRegistry (limiter.take token 1)).bind (gate.conclude who))
          (.done outcome) := h
      obtain ⟨taken, result, rest, rfl, htaken, hrest⟩ := htwo.of_bind
      refine ⟨limiter, taken, rest, result, rfl, htaken, ?_⟩
      let found : Ledger := { Ledger.blank with bucket := some limiter.bucket }
      have hpaid : found.Paid (taken.foldl Ledger.noteGate found) (costOf 1 result) :=
        (ends_take limiter token 1 rfl).along htaken
      have hshows := (ends_conclude gate who result hpaid.bucket
        (hpaid.taken.trans (Int.zero_add _)) hpaid.failOpens hpaid.serves).along hrest
      rw [List.foldl_cons, List.foldl_append]
      exact hshows

/-- A request without a caller asks for nothing but to be served. -/
theorem asks_handle_of_unknown (hcaller : who.caller = "") (token : String) :
    (gate.handle (α := α) who token).Asks fun (question : Ask) _ => question = .serve := by
  rw [handle_of_unknown hcaller]
  refine ⟨rfl, ?_⟩
  rintro (error | value)
  · trivial
  · trivial

end Gate

end FlowControl
