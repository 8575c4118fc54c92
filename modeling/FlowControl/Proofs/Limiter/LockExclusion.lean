import FlowControl.Proofs.Limiter.LockSafety
import FlowControl.Proofs.Store.History

/-!
# Which locks keep others out

A lock lives for its time to live in whole milliseconds, and its last reading is the last
one of the clock.  If that leaves at least one reading, then from the moment the lock is
granted nobody else is granted it before its token is released, as long as the clock does
not pass the reading of the grant (`excludes_iff`).  A lock of less than a millisecond has
expired when it is granted, and so has every lock that is granted at the last reading of
the clock: two parties get such a lock one right after the other.

Parties are interleaved in any order as elsewhere, each with its own timing of the lock.
Nothing is said about later readings; there the lock may have expired.
-/

namespace FlowControl

open Limiter

/-- Does a lock of this timing that is granted at a reading keep all others out, until its token
is released or the clock passes the reading?  The store may hold anything at the start, and the
others may have any timing. -/
def LockConfig.Excludes (config : LockConfig) (now : UInt64) : Prop :=
  ∀ {ι α : Type} [DecidableEq ι] (timing : ι → LockConfig) (key : String) (token : ι → String)
    (work : ι → Program α), (∀ i, (work i).Asks (Spares key)) →
    ∀ (m₀ : Memory) (acts : List (Act ι)) (newer older : List (Moment ι)) (e : Moment ι) (i : ι),
      ((Fleet.start m₀ fun i => underLock (timing i) key (token i) (work i)).run acts).past =
        newer ++ e :: older →
      timing i = config → e.party = some i → e.grant? = some ⟨key, token i⟩ → e.reading = now →
      (∀ d ∈ newer, d.reading ≤ now ∧ d.freed? ≠ some ⟨key, token i⟩) →
      ∀ d ∈ newer, ∀ other, d.grant? ≠ some ⟨key, other⟩

variable {ι α : Type} {config : LockConfig} {key token : String} {now t : UInt64}
  {m m₀ : Memory} {ttl : Duration} {newer older : List (Moment ι)} {e d : Moment ι}
  {work : Program α}

/-! ## What keeps a lock -/

/-- While a token is not released, every moment up to a reading at which it is stored leaves it
stored, and grants the lock to nobody. -/
theorem Linked.keeps (hlinked : Linked m₀ (newer ++ e :: older) m)
    (hasks : ∀ d ∈ newer, ∃ ttl, LockAsk key ttl d.ask)
    (hheld : e.after.live? key t = some token)
    (hkept : ∀ d ∈ newer, d.reading ≤ t ∧ d.freed? ≠ some ⟨key, token⟩) :
    (∀ d ∈ newer, ∀ other, d.grant? ≠ some ⟨key, other⟩) ∧ m.live? key t = some token := by
  -- The invariant is that the token is stored; the latest moment is the last to keep it.
  induction newer generalizing m with
  | nil =>
      refine ⟨fun d hd => absurd hd List.not_mem_nil, ?_⟩
      rw [Memory.live?_congr (congrArg (List.lookup key) hlinked.1), hheld]
  | cons d newer ih =>
      obtain ⟨hentries, hanswered, holder⟩ := hlinked
      obtain ⟨hask, hasks⟩ := List.forall_mem_cons.mp hasks
      obtain ⟨⟨hle, hfreed⟩, hkept⟩ := List.forall_mem_cons.mp hkept
      obtain ⟨ttl, hask⟩ := hask
      obtain ⟨hnobody, hbefore⟩ := ih holder hasks hkept
      obtain ⟨hgrant, hafter⟩ := (Moment.lockEffect hanswered hask).keeps hle hbefore hfreed
      refine ⟨List.forall_mem_cons.mpr ⟨hgrant, hnobody⟩, ?_⟩
      rw [Memory.live?_congr (congrArg (List.lookup key) hentries), hafter]

/-- A lock that was granted is stored as long as it lives. -/
theorem Moment.LockEffect.live?_of_granted (h : e.LockEffect key ttl)
    (hgrant : e.grant? = some ⟨key, token⟩)
    (hlives : t.toNat < min (e.reading.toNat + ttl.millis) Word.maxNat) :
    e.after.live? key t = some token := by
  cases h with
  | granted other hother _ _ hafter =>
      have hguard := Option.some.inj (hother.symm.trans hgrant)
      have htoken : other = token := congrArg Guard.token hguard
      rw [htoken, ← Memory.find?_put_self (m := e.before)] at hafter
      rw [Memory.live?_congr hafter]
      exact Memory.live?_put_self_iff.mpr ⟨rfl, hlives⟩
  | released _ hnone => exact absurd (hnone.symm.trans hgrant) nofun
  | unnoticed hnobody => exact absurd hgrant (hnobody token)

/-- Parties that work under a lock treat its key as a lock of their own timing, and the background
as a lock of any. -/
theorem lockAsk_of_mem_past_run [DecidableEq ι] (timing : ι → LockConfig) (token : ι → String)
    {work : ι → Program α} (hwork : ∀ i, (work i).Asks (Spares key)) (acts : List (Act ι))
    (hd : d ∈ ((Fleet.start m₀ fun i =>
      underLock (timing i) key (token i) (work i)).run acts).past) :
    (∀ i, d.party = some i → LockAsk key (timing i).ttl d.ask) ∧
      (d.party = none → ∀ ttl, LockAsk key ttl d.ask) := by
  refine Fleet.asks_of_mem_past_run (P := fun party ask =>
    (∀ i, party = some i → LockAsk key (timing i).ttl ask) ∧
      (party = none → ∀ ttl, LockAsk key ttl ask)) (fun i => ?_) (fun g => ?_) acts hd
  · refine (asks_underLock (hwork i)).weaken fun ask held hasked => ⟨fun j hj => ?_, nofun⟩
    cases hj
    exact lockAsk_of_ownsLock hasked
  · exact (asks_giveUp g).weaken fun ask _ hasked =>
      ⟨nofun, fun _ ttl => lockAsk_of_abandons hasked⟩

/-- A lock that is not over at the reading of its grant keeps all others out. -/
theorem LockConfig.excludes_of_lasts
    (h : now.toNat < min (now.toNat + config.ttl.millis) Word.maxNat) : config.Excludes now := by
  intro ι α _ timing key token work hwork m₀ acts newer older e i hpast hconfig hparty hgrant
    hreading hkept
  obtain ⟨m, hlinked⟩ : ∃ m, Linked m₀ (newer ++ e :: older) m := by
    rw [← hpast]
    exact ⟨_, Fleet.linked_run rfl⟩
  have hasked : ∀ d ∈ newer ++ e :: older, (∀ j, d.party = some j →
      LockAsk key (timing j).ttl d.ask) ∧ (d.party = none → ∀ ttl, LockAsk key ttl d.ask) := by
    rw [← hpast]
    exact fun d hd => lockAsk_of_mem_past_run timing token hwork acts hd
  have he : e ∈ newer ++ e :: older := List.mem_append_right _ List.mem_cons_self
  have hown : LockAsk key config.ttl e.ask := by
    rw [← hconfig]
    exact (hasked e he).1 i hparty
  have hothers : ∀ d ∈ newer, ∃ ttl, LockAsk key ttl d.ask := by
    intro d hd
    obtain ⟨hparties, hnobody⟩ := hasked d (List.mem_append_left _ hd)
    cases hd' : d.party with
    | none => exact ⟨config.ttl, hnobody hd' _⟩
    | some j => exact ⟨_, hparties j hd'⟩
  have hheld : e.after.live? key now = some (token i) := by
    refine (Moment.lockEffect (hlinked.answered e he) hown).live?_of_granted hgrant ?_
    rw [hreading]
    exact h
  exact (hlinked.keeps hothers hheld hkept).1

/-! ## What a lock that is over at once lets through -/

/-- Who works under a lock tries for it first. -/
theorem Limiter.exists_underLock_eq (config : LockConfig) (key token : String) (work : Program α) :
    ∃ resume, underLock config key token work =
      .ask (.store (.setIfAbsent key token config.ttl)) [] resume := by
  unfold underLock acquire
  rw [acquireFrom]
  exact ⟨_, rfl⟩

/-- Who tries for a free lock is granted it. -/
theorem Moment.grant?_of_free {party : Option ι} (hup : m.unavailable = false)
    (hfree : m.live? key now = none) :
    (Moment.of party now (.store (.setIfAbsent key token ttl)) m).grant? = some ⟨key, token⟩ := by
  show granted? (.store (.setIfAbsent key token ttl))
    (answerAt Memory.call now (.store (.setIfAbsent key token ttl)) m).1 = _
  rw [answerAt_try_of_free hup hfree]
  rfl

/-- When two parties are answered one after the other, their questions are the latest of the
past. -/
theorem Fleet.past_run_two [DecidableEq ι] {f : Fleet ι α} {i j : ι} {ask ask' : Ask}
    {held held' : List Guard} {resume : ask.Answer → Program α} {resume' : ask'.Answer → Program α}
    (hne : j ≠ i) (hfirst : f.task i = some (.ask ask held resume))
    (hsecond : f.task j = some (.ask ask' held' resume')) (now : UInt64) :
    let e := Moment.of (some i) now ask f.memory
    (f.run [.go i now, .go j now]).past = Moment.of (some j) now ask' e.after :: e :: f.past := by
  intro e
  rw [run_cons, step_go_ask hfirst]
  have htask : (f.goOn i e (some (resume e.answer))).task j = some (.ask ask' held' resume') := by
    rw [goOn, task_setTask_of_ne hne]
    exact hsecond
  exact congrArg Fleet.past (step_go_ask htask)

/-- A lock that is over at the reading of its grant is granted to two parties one after the
other. -/
theorem LockConfig.not_excludes_of_over
    (h : min (now.toNat + config.ttl.millis) Word.maxNat ≤ now.toNat) : ¬ config.Excludes now := by
  intro hexcludes
  let token (first : Bool) := if first then "first" else "second"
  obtain ⟨resume, hfirst⟩ := exists_underLock_eq config "lock" "first" (pure ())
  obtain ⟨resume', hsecond⟩ := exists_underLock_eq config "lock" "second" (pure ())
  let e := Moment.of (some true) now (.store (.setIfAbsent "lock" "first" config.ttl)) .empty
  let d := Moment.of (some false) now (.store (.setIfAbsent "lock" "second" config.ttl)) e.after
  have hpast := Fleet.past_run_two
    (f := .start .empty fun i => underLock config "lock" (token i) (pure ())) Bool.false_ne_true
    (congrArg some hfirst) (congrArg some hsecond) now
  have hgrant : e.grant? = some ⟨"lock", "first"⟩ := Moment.grant?_of_free rfl rfl
  have hafter : e.after = Memory.put .empty "lock" ⟨"first", Memory.expiry now config.ttl⟩ := rfl
  -- What the first party wrote is over when the second one tries.
  have hover : e.after.live? "lock" now = none := by
    rw [hafter, Option.eq_none_iff_forall_ne_some]
    intro value hlive
    have hlives := (Memory.live?_put_self_iff.mp hlive).2
    omega
  have hup : e.after.unavailable = false := by rw [hafter]; rfl
  have hother : d.grant? = some ⟨"lock", "second"⟩ := Moment.grant?_of_free hup hover
  refine hexcludes (fun _ => config) "lock" token (fun _ => pure ()) (fun _ => trivial) .empty
    [.go true now, .go false now] [d] [] e true hpast rfl rfl hgrant rfl ?_ d
    List.mem_cons_self "second" hother
  intro d' hd'
  rw [List.mem_singleton.mp hd', Moment.freed?_of_grant? hother]
  exact ⟨UInt64.le_refl now, nofun⟩

/-- A lock keeps all others out at the reading of its grant exactly when it lives for a whole
millisecond at least and the clock can show a later reading. -/
theorem LockConfig.excludes_iff (config : LockConfig) (now : UInt64) :
    config.Excludes now ↔ 1 ≤ config.ttl.millis ∧ now.toNat < Word.maxNat := by
  constructor
  · intro hexcludes
    by_contra hshort
    exact not_excludes_of_over (by omega) hexcludes
  · rintro ⟨hlife, hlast⟩
    exact excludes_of_lasts (by omega)

/-- A lock of a nanosecond less than a millisecond is accepted, and keeps nobody out at any
reading. -/
theorem LockConfig.not_excludes_of_submillisecond :
    let config : LockConfig := { LockConfig.standard with ttl := .ofNanos 999999 }
    config.check = .ok () ∧ ∀ now, ¬ config.Excludes now := by
  intro config
  refine ⟨by decide, fun now => not_excludes_of_over ?_⟩
  have hlife : config.ttl.millis = 0 := by decide
  omega

end FlowControl
