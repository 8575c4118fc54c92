import FlowControl.Proofs.Limiter.GateProgram
import FlowControl.Proofs.Limiter.Registry

/-!
# A service behind a gate

Requests arrive at a gate at any time and go on question by question, in any order.  The
gate asks a registry, which it may share with others; sweeps run at any time, and others
call the store.  Any call of the store may fail, with any fault and without an effect, and
the service may serve or fail a request.

Every passage keeps its transcript.  Of a passage that has its answer the transcript shows
whether it was served, what its take paid and whether it passed in spite of a failure; the
counts are sums over such passages, so requests that are still on their way do not count.
-/

namespace FlowControl

/-- A request on its way through a gate: who sent it, the token of its take, what it asked and was
answered so far, and what is left to do. -/
structure Passage (α : Type) where
  who : Identity
  token : String
  asked : List (Exchange (Gate.interface α))
  rest : Gate.Program α (Except Rejection α)

namespace Passage

variable {α : Type} {gate : Gate} {p : Passage α}

/-- A request that has just arrived. -/
def arrival (gate : Gate) (who : Identity) (token : String) : Passage α :=
  ⟨who, token, [], gate.handle who token⟩

/-- The answer to the request, once it has one. -/
def outcome? (p : Passage α) : Option (Except Rejection α) :=
  match p.rest with
  | .done outcome => some outcome
  | .ask .. => none

/-- What the transcript shows. -/
def ledger (p : Passage α) : Ledger := p.asked.foldl Ledger.noteGate .blank

/-- Did the request take its token from the limiter of its key, with this result? -/
def Took (gate : Gate) (p : Passage α) (result : Except LimitError Unit) : Prop :=
  ∃ limiter taken rest,
    p.asked = ⟨.limiter (gate.keyOf p.who) gate.config, limiter⟩ :: (taken ++ rest) ∧
      Routine.Along taken (Gate.ofRegistry (limiter.take p.token 1)) (.done result)

/-- Did that take fail for the lock or the store, under a policy that lets the request pass then? -/
def FailedOpen (gate : Gate) (p : Passage α) : Prop :=
  ∃ error, p.Took gate (.error error) ∧ error.isBackendFailure = true ∧ gate.policy = .letPass

/-- Has a request asked what the gate asks for it, and was it given limiters of the keys that it
asked for? -/
structure Proper (gate : Gate) (p : Passage α) : Prop where
  along : Routine.Along p.asked (gate.handle p.who p.token) p.rest
  limiters : ∀ key config limiter, ⟨.limiter key config, limiter⟩ ∈ p.asked → limiter.key = key

end Passage

/-- A service behind a gate: the registry, the store, and the requests that arrived, in order. -/
structure GatedService (α : Type) where
  registry : Registry
  memory : Memory
  passages : List (Passage α)

namespace GatedService

variable {α : Type}

/-- What can happen next: a request arrives, or goes on at a reading, with a fault in case its call
of the store fails and with what the service makes of it; a sweep; a call of the store by somebody
else; or that the store starts or stops failing. -/
inductive Act (α : Type) where
  | arrive (who : Identity) (token : String)
  | go (k : Nat) (reading : UInt64) (fault : Option StoreFault) (served : Except CallError α)
  | sweep (reading : UInt64)
  | elsewhere (reading : UInt64) (call : StoreCall)
  | outage (down : Bool)

/-- No requests yet, over a registry and a store. -/
def start (r : Registry) (m : Memory) : GatedService α := ⟨r, m, []⟩

/-- A store that fails with a fault, if there is one, and does nothing then. -/
def faulty (fault : Option StoreFault) : StoreRule := fun m now call =>
  match fault with
  | some fault => (.error fault, m)
  | none => m.call now call

/-- Answers a question of a request. -/
def answer (s : GatedService α) (reading : UInt64) (fault : Option StoreFault)
    (served : Except CallError α) : (question : Gate.Ask) → question.Answer α × GatedService α
  | .registry (.limiter question) =>
    let (answer, memory) := Limiter.answerAt (faulty fault) reading question s.memory
    (answer, { s with memory })
  | .registry (.enter h) => ((), { s with registry := s.registry.enter h reading })
  | .registry (.touch h) => ((), { s with registry := s.registry.touch h reading })
  | .registry (.leave h) => ((), { s with registry := s.registry.leave h })
  | .limiter key config =>
    let (h, registry, _) := s.registry.getOrCreate key config reading
    (h, { s with registry })
  | .ready => (.ok (), s)
  | .serve => (served, s)

/-- What an act does; requests that have their answers do not go on. -/
def step (gate : Gate) (s : GatedService α) : Act α → GatedService α
  | .arrive who token => { s with passages := s.passages ++ [.arrival gate who token] }
  | .go k reading fault served =>
    match s.passages[k]? with
    | some ⟨who, token, asked, .ask question _ resume⟩ =>
      let (answer, after) := s.answer reading fault served question
      { after with
        passages := s.passages.set k
          ⟨who, token, asked ++ [⟨question, answer⟩], resume answer⟩ }
    | _ => s
  | .sweep reading => { s with registry := (s.registry.sweep reading).2.1 }
  | .elsewhere reading call => { s with memory := (s.memory.call reading call).2 }
  | .outage down => { s with memory := { s.memory with unavailable := down } }

/-- What acts do one after another. -/
def run (gate : Gate) (s : GatedService α) (acts : List (Act α)) : GatedService α :=
  acts.foldl (step gate) s

/-- The requests of a sender that have their answers. -/
def answered (s : GatedService α) (who : Identity) : List (Passage α) :=
  s.passages.filter fun p => decide (p.who = who) && p.outcome?.isSome

/-- A sum over what the ledgers of requests show. -/
def total (count : Ledger → Int) (passages : List (Passage α)) : Int :=
  passages.foldr (fun p sum => count p.ledger + sum) 0

/-- Have all requests asked as they should? -/
def Proper (gate : Gate) (s : GatedService α) : Prop := ∀ p ∈ s.passages, p.Proper gate

end GatedService

/-! ## What every passage keeps -/

namespace Passage

variable {α : Type} {gate : Gate} {p : Passage α} {who : Identity} {token : String}

theorem proper_arrival (gate : Gate) (who : Identity) (token : String) :
    (arrival (α := α) gate who token).Proper gate :=
  ⟨.here _, nofun⟩

/-- Another answer keeps a passage proper, if limiters are given for their keys. -/
theorem Proper.concat {asked : List (Exchange (Gate.interface α))} {question : Gate.Ask}
    {held : List Registry.Held}
    {resume : question.Answer α → Gate.Program α (Except Rejection α)}
    (h : Proper gate ⟨who, token, asked, .ask question held resume⟩)
    (answer : question.Answer α)
    (hlimiter : ∀ key config limiter,
      (⟨question, answer⟩ : Exchange (Gate.interface α)) = ⟨.limiter key config, limiter⟩ →
        limiter.key = key) :
    Proper gate ⟨who, token, asked ++ [⟨question, answer⟩], resume answer⟩ where
  along := h.along.concat answer
  limiters key config limiter hmem := by
    rcases List.mem_append.mp hmem with hmem | hmem
    · exact h.limiters key config limiter hmem
    · exact hlimiter key config limiter (List.mem_singleton.mp hmem).symm

end Passage

namespace GatedService

variable {α : Type} {gate : Gate} {s : GatedService α}

theorem Proper.step (h : s.Proper gate) (a : Act α) : (s.step gate a).Proper gate := by
  cases a with
  | arrive who token =>
      intro p hp
      rcases List.mem_append.mp hp with hp | hp
      · exact h p hp
      · rw [List.mem_singleton.mp hp]
        exact Passage.proper_arrival gate who token
  | go k reading fault served =>
      simp only [GatedService.step]
      split
      · next who token asked question held resume hget =>
        intro p hp
        rcases List.mem_or_eq_of_mem_set hp with hp | rfl
        · exact h p hp
        · refine (h _ (List.mem_of_getElem? hget)).concat _ ?_
          rintro key config limiter heq
          cases question with
          | limiter key' config' =>
              cases heq
              exact Registry.key_getOrCreate ..
          | _ => cases heq
      · exact h
  | sweep reading => exact h
  | elsewhere reading call => exact h
  | outage down => exact h

theorem proper_run (gate : Gate) (r : Registry) (m : Memory) (acts : List (Act α)) :
    ((start r m).run gate acts).Proper gate := by
  have hrun : ∀ s : GatedService α, s.Proper gate → (s.run gate acts).Proper gate := by
    induction acts with
    | nil => exact fun s h => h
    | cons a acts ih => exact fun s h => ih _ (h.step a)
  exact hrun _ nofun

end GatedService

/-! ## What the transcript of an answered request shows -/

namespace Passage

variable {α : Type} {gate : Gate} {p : Passage α} {outcome : Except Rejection α}
  {result result' : Except LimitError Unit}

theorem Proper.along_done (h : p.Proper gate) (hdone : p.outcome? = some outcome) :
    Routine.Along p.asked (gate.handle p.who p.token) (.done outcome) := by
  have hrest : p.rest = .done outcome := by
    unfold outcome? at hdone
    split at hdone
    · next hrest => rw [hrest, Option.some.inj hdone]
    · cases hdone
  exact hrest ▸ h.along

/-- A request without a caller is served, and that is all it asks for. -/
theorem Proper.asked_of_unknown (h : p.Proper gate) (hcaller : p.who.caller = "") :
    ∀ x ∈ p.asked, x.request = .serve := by
  intro x hx
  obtain ⟨_, hserve⟩ := h.along.asked (Gate.asks_handle_of_unknown hcaller p.token) x hx
  exact hserve

theorem Proper.ledger_of_unknown (h : p.Proper gate) (hcaller : p.who.caller = "")
    (hdone : p.outcome? = some outcome) :
    p.ledger = { Ledger.blank with serves := 1 } ∧ Gate.turnsAway outcome = false := by
  have halong := h.along_done hdone
  rw [Gate.handle_of_unknown hcaller] at halong
  exact (Gate.ends_pass .blank).along halong

/-- A request with a caller took its token from a bucket of its key, and the ledger shows the
result. -/
theorem Proper.shows (h : p.Proper gate) (hcaller : p.who.caller ≠ "")
    (hdone : p.outcome? = some outcome) :
    ∃ b result, b.key = gate.keyOf p.who ∧ p.Took gate result ∧
      gate.Shows b result p.ledger outcome := by
  obtain ⟨limiter, taken, rest, result, hasked, htaken, hshows⟩ :=
    Gate.along_handle hcaller (h.along_done hdone)
  have hkey : limiter.key = gate.keyOf p.who :=
    h.limiters _ _ limiter (hasked ▸ List.mem_cons_self)
  exact ⟨limiter.bucket, result, hkey, ⟨limiter, taken, rest, hasked, htaken⟩, hshows⟩

/-- The take of a request has one result. -/
theorem Took.unique (h : p.Took gate result) (h' : p.Took gate result') : result = result' := by
  obtain ⟨limiter, taken, rest, hasked, htaken⟩ := h
  obtain ⟨limiter', taken', rest', hasked', htaken'⟩ := h'
  obtain ⟨hfirst, hothers⟩ := List.cons.inj (hasked.symm.trans hasked')
  cases hfirst
  exact (htaken.unique htaken' hothers).2

theorem Proper.not_took (h : p.Proper gate) (hcaller : p.who.caller = "") :
    ¬ p.Took gate result := by
  rintro ⟨limiter, taken, rest, hasked, -⟩
  have hserve := h.asked_of_unknown hcaller _ (hasked ▸ List.mem_cons_self)
  cases hserve

/-- The results of its take after which a request passes. -/
theorem Took.admits_iff (h : p.Took gate result) :
    gate.admits result = true ↔ p.Took gate (.ok ()) ∨ p.FailedOpen gate := by
  rw [Gate.admits_iff]
  constructor
  · rintro (rfl | ⟨error, rfl, hfailure, hpolicy⟩)
    · exact .inl h
    · exact .inr ⟨error, h, hfailure, hpolicy⟩
  · rintro (hok | ⟨error, herror, hfailure, hpolicy⟩)
    · exact .inl (h.unique hok)
    · exact .inr ⟨error, h.unique herror, hfailure, hpolicy⟩

theorem Took.failsOpen_iff (h : p.Took gate result) :
    gate.failsOpen result = true ↔ p.FailedOpen gate := by
  constructor
  · intro hopen
    cases result with
    | ok _ => cases hopen
    | error error =>
        simp only [Gate.failsOpen, Bool.and_eq_true, beq_iff_eq] at hopen
        exact ⟨error, h, hopen⟩
  · rintro ⟨error, herror, hfailure, hpolicy⟩
    rw [h.unique herror]
    simp [Gate.failsOpen, hfailure, hpolicy]

/-- What holds of a request that has its answer: it is served at most once, and just if it has no
caller, or its take succeeded, or it failed open; it is not served if it is turned away; and it is
reported as failing open once just if it did. -/
structure Accounted (gate : Gate) (p : Passage α) (outcome : Except Rejection α) : Prop where
  once : p.ledger.serves ≤ 1
  served : p.ledger.serves = 1 ↔ p.who.caller = "" ∨ p.Took gate (.ok ()) ∨ p.FailedOpen gate
  turnedAway : Gate.turnsAway outcome = true → p.ledger.serves = 0
  openedOnce : p.ledger.failOpens ≤ 1
  opened : p.ledger.failOpens = 1 ↔ p.FailedOpen gate

theorem Proper.accounted (h : p.Proper gate) (hdone : p.outcome? = some outcome) :
    p.Accounted gate outcome := by
  by_cases hcaller : p.who.caller = ""
  · obtain ⟨hledger, haway⟩ := h.ledger_of_unknown hcaller hdone
    have hserves : p.ledger.serves = 1 := congrArg Ledger.serves hledger
    have hopens : p.ledger.failOpens = 0 := congrArg Ledger.failOpens hledger
    have hclosed : ¬ p.FailedOpen gate := fun ⟨_, htook, _⟩ => h.not_took hcaller htook
    constructor
    case once => exact Nat.le_of_eq hserves
    case served => exact iff_of_true hserves (.inl hcaller)
    case turnedAway => rw [haway]; nofun
    case openedOnce => exact hopens ▸ Nat.zero_le 1
    case opened => exact iff_of_false (hopens ▸ nofun) hclosed
  · obtain ⟨b, result, -, htook, hshows⟩ := h.shows hcaller hdone
    constructor
    case once => rw [hshows.serves]; exact Bool.toNat_le _
    case served => rw [hshows.serves, Bool.toNat_eq_one, htook.admits_iff, or_iff_right hcaller]
    case turnedAway =>
      intro haway
      rw [hshows.serves, hshows.turnedAway haway]
      rfl
    case openedOnce => rw [hshows.failOpens]; exact Bool.toNat_le _
    case opened => rw [hshows.failOpens, Bool.toNat_eq_one, htook.failsOpen_iff]

/-- What a request with a caller is served for: a token that it paid, or a pass in spite of a
failure. -/
theorem Proper.balance (h : p.Proper gate) (hcaller : p.who.caller ≠ "")
    (hdone : p.outcome? = some outcome) :
    (p.ledger.serves : Int) = p.ledger.taken + p.ledger.failOpens := by
  obtain ⟨b, result, -, -, hshows⟩ := h.shows hcaller hdone
  rw [hshows.serves, hshows.taken, hshows.failOpens]
  cases result with
  | ok _ => rfl
  | error error =>
      show (((false || gate.failsOpen (.error error)).toNat : Nat) : Int) = 0 + _
      rw [Bool.false_or, Int.zero_add]

end Passage

/-! ## The requests of one sender together -/

namespace GatedService

variable {α : Type} {gate : Gate} {s : GatedService α}

theorem total_add {f g h : Ledger → Int} {passages : List (Passage α)}
    (hbalance : ∀ p ∈ passages, f p.ledger = g p.ledger + h p.ledger) :
    total f passages = total g passages + total h passages := by
  induction passages with
  | nil => rfl
  | cons p passages ih =>
      have hfirst := hbalance p List.mem_cons_self
      have hrest := ih fun q hq => hbalance q (List.mem_cons_of_mem p hq)
      simp only [total, List.foldr_cons] at hrest ⊢
      omega

theorem total_const {f : Ledger → Int} {passages : List (Passage α)} (n : Int)
    (hconst : ∀ p ∈ passages, f p.ledger = n) : total f passages = passages.length * n := by
  induction passages with
  | nil => exact (Int.zero_mul n).symm
  | cons p passages ih =>
      have hfirst := hconst p List.mem_cons_self
      have hrest := ih fun q hq => hconst q (List.mem_cons_of_mem p hq)
      simp only [total, List.foldr_cons, List.length_cons] at hrest ⊢
      rw [hfirst, hrest, Int.natCast_add, Int.add_mul, Int.natCast_one, Int.one_mul, Int.add_comm]

theorem mem_answered {who : Identity} {p : Passage α} :
    p ∈ s.answered who ↔ p ∈ s.passages ∧ p.who = who ∧ ∃ outcome, p.outcome? = some outcome := by
  simp [answered, List.mem_filter, Option.isSome_iff_exists]

/-- A request without a caller does nothing to the registry and the store. -/
theorem Proper.go_of_unknown (h : s.Proper gate) {k : Nat} {p : Passage α}
    (hget : s.passages[k]? = some p) (hcaller : p.who.caller = "") (reading : UInt64)
    (fault : Option StoreFault) (served : Except CallError α) :
    (s.step gate (.go k reading fault served)).registry = s.registry ∧
      (s.step gate (.go k reading fault served)).memory = s.memory := by
  have hrest : p.rest.Asks fun (question : Gate.Ask) _ => question = .serve :=
    (h p (List.mem_of_getElem? hget)).along.asks_rest
      (Gate.asks_handle_of_unknown hcaller p.token)
  obtain ⟨who, token, asked, rest⟩ := p
  simp only [GatedService.step, hget]
  cases rest with
  | done outcome => exact ⟨rfl, rfl⟩
  | ask question held resume =>
      obtain ⟨hserve, -⟩ := hrest
      obtain rfl : question = .serve := hserve
      exact ⟨rfl, rfl⟩

/-- The accounts of a service behind a gate.  Every request that has its answer is accounted for; a
request without a caller asks for nothing but to be served, and leaves the registry and the store
as they are.  The requests of a sender with a caller are served as often as they took tokens, all
from buckets of one key, and failed open; those of a sender without a caller are all served. -/
theorem admissions_accounted (gate : Gate) (r : Registry) (m : Memory) (acts : List (Act α)) :
    let s := (start r m).run gate acts
    (∀ p ∈ s.passages, ∀ outcome, p.outcome? = some outcome → p.Accounted gate outcome) ∧
    (∀ k p, s.passages[k]? = some p → p.who.caller = "" →
      (∀ x ∈ p.asked, x.request = .serve) ∧
      ∀ reading fault served,
        let t := s.step gate (.go k reading fault served)
        t.registry = s.registry ∧ t.memory = s.memory) ∧
    ∀ who,
      let serves := total (fun l => l.serves) (s.answered who)
      let taken := total Ledger.taken (s.answered who)
      let failOpens := total (fun l => l.failOpens) (s.answered who)
      (who.caller ≠ "" →
        (∀ p ∈ s.answered who, ∃ b, p.ledger.bucket = some b ∧ b.key = gate.keyOf who) ∧
        serves = taken + failOpens) ∧
      (who.caller = "" →
        serves = (s.answered who).length ∧ taken = 0 ∧ failOpens = 0) := by
  intro s
  have hproper : s.Proper gate := proper_run gate r m acts
  refine ⟨?_, ?_, fun who => ⟨fun hcaller => ⟨?_, ?_⟩, fun hcaller => ?_⟩⟩
  · exact fun p hp outcome hdone => (hproper p hp).accounted hdone
  · intro k p hget hcaller
    have hp := hproper p (List.mem_of_getElem? hget)
    exact ⟨hp.asked_of_unknown hcaller, hproper.go_of_unknown hget hcaller⟩
  · intro p hp
    obtain ⟨hmem, rfl, outcome, hdone⟩ := mem_answered.mp hp
    obtain ⟨b, result, hkey, -, hshows⟩ := (hproper p hmem).shows hcaller hdone
    exact ⟨b, hshows.bucket, hkey⟩
  · refine total_add fun p hp => ?_
    obtain ⟨hmem, rfl, outcome, hdone⟩ := mem_answered.mp hp
    exact (hproper p hmem).balance hcaller hdone
  · have hledger : ∀ p ∈ s.answered who, p.ledger = { Ledger.blank with serves := 1 } := by
      intro p hp
      obtain ⟨hmem, rfl, outcome, hdone⟩ := mem_answered.mp hp
      exact ((hproper p hmem).ledger_of_unknown hcaller hdone).1
    refine ⟨?_, ?_, ?_⟩
    · exact (total_const 1 fun p hp => by rw [hledger p hp]; rfl).trans (Int.mul_one _)
    · exact (total_const 0 fun p hp => by rw [hledger p hp]; rfl).trans (Int.mul_zero _)
    · exact (total_const 0 fun p hp => by rw [hledger p hp]; rfl).trans (Int.mul_zero _)

/-- Of three requests one takes the only token, one is limited, and one fails open. -/
theorem admissions_accounted_three :
    let who : Identity := ⟨"caller", "GET", "/movies"⟩
    let gate : Gate := ⟨"svc", { LimiterConfig.standard with capacity := 1 }, .letPass⟩
    let acts : List (Act Unit) := [.arrive who "a", .arrive who "b", .arrive who "c"] ++
      List.replicate 11 (.go 0 0 none (.ok ())) ++ List.replicate 11 (.go 1 0 none (.ok ())) ++
      List.replicate 7 (.go 2 0 (some (.unavailable "down")) (.ok ()))
    let s := (start .empty .empty).run gate acts
    (s.answered who).length = 3 ∧
      total Ledger.taken (s.answered who) = 1 ∧
      total (fun l => l.failOpens) (s.answered who) = 1 ∧
      total (fun l => l.serves) (s.answered who) = 2 := by
  intro who gate acts s
  have htaken : total Ledger.taken (s.answered who) = 1 := by decide +kernel
  have hopens : total (fun l => l.failOpens) (s.answered who) = 1 := by decide +kernel
  refine ⟨by decide +kernel, htaken, hopens, ?_⟩
  rw [(((admissions_accounted gate .empty .empty acts).2.2 who).1 (by decide)).2, htaken, hopens]
  rfl

end GatedService

end FlowControl
