import FlowControl.Proofs.Limiter.KeyHistory
import FlowControl.Proofs.Limiter.TakeStages

/-!
# Accounts of a take among others

One party makes a take, the others do what they like.  The store may fail for a while, and
parties may be dropped.  In each stage of the take the past tells what it has read and what it has
stored: nothing until it saves, and then what it leaves of the state it loaded, refilled up to its
reading of the clock.

Outside the lock its token is gone, unless it was stored before, or by others, or unless the
release has failed.
-/

namespace FlowControl

open Limiter

variable {ι : Type} {e : Moment ι} {m m' : Memory} {older : List (Moment ι)} [DecidableEq ι] {i : ι}

namespace Bucket

variable {b : Bucket} {token : String} {n now : UInt64} {state : Option TokenState}
  {s : TokenState} {stage stage' : TakeStage}

/-! ## What a take leaves alone -/

omit [DecidableEq ι] in
/-- A take writes the key of its state only by storing. -/
theorem saves_of_takeAsk (h : TakeAsk b token e.ask) (hwrites : e.Writes b.key.stateKey) :
    e.Saves b.key.stateKey := by
  have hkeys := b.key.lockKey_ne_stateKey
  obtain ⟨party, reading, ask, answer, before, after⟩ := e
  rcases h with hinside | rfl | ⟨length, rfl⟩
  · cases ask with
    | store c =>
        cases c with
        | get k => exact hwrites.elim
        | set k text ttl =>
            obtain rfl : k = b.key.stateKey := hwrites
            exact ⟨text, ttl, rfl⟩
        | setIfAbsent k value ttl => exact hinside.elim
        | deleteIfEqual k value => exact absurd (hinside.1.symm.trans hwrites) hkeys
        | delete k => exact hinside.elim
    | _ => exact hwrites.elim
  · exact absurd hwrites hkeys
  · exact hwrites.elim

omit [DecidableEq ι] in
/-- A take does not touch a lock that another token holds. -/
theorem find?_lock_of_takeAsk (h : TakeAsk b token e.ask) (he : e.Answered) {other : String}
    (hother : other ≠ token) (hheld : e.before.live? b.key.lockKey e.reading = some other) :
    e.after.find? b.key.lockKey = e.before.find? b.key.lockKey := by
  have hkeys := b.key.lockKey_ne_stateKey
  obtain ⟨party, reading, ask, m, rfl⟩ := he
  replace hheld : m.live? b.key.lockKey reading = some other := hheld
  cases ask with
  | now | pause length | note event => rfl
  | store c =>
      cases hdown : m.unavailable with
      | true => rw [Moment.after_of_outage hdown]; rfl
      | false =>
          rw [Moment.after_of_available hdown]
          rcases h with hinside | htry | ⟨length, hpause⟩
          · cases c with
            | get k =>
                obtain rfl : k = b.key.stateKey := hinside
                exact Memory.find?_answer_of_ne (.get b.key.stateKey) hkeys.symm
            | set k text ttl =>
                obtain rfl : k = b.key.stateKey := hinside
                exact Memory.find?_answer_of_ne (.set b.key.stateKey text ttl) hkeys.symm
            | deleteIfEqual k value =>
                obtain ⟨rfl, rfl⟩ : k = b.key.lockKey ∧ value = token := hinside
                rw [Memory.answer_deleteIfEqual_of_ne fun htoken =>
                  hother (Option.some.inj (hheld.symm.trans htoken))]
                exact Memory.find?_purge_of_live hheld
            | _ => exact hinside.elim
          · obtain rfl : c = _ := Ask.store.inj htry
            rw [Memory.answer_setIfAbsent_of_live hheld]
            exact Memory.find?_purge_of_live hheld
          · cases hpause

/-! ## The account of a take -/

/-- Has a party read the clock? -/
def HasClock (i : ι) (past : List (Moment ι)) (now : UInt64) : Prop :=
  ∃ e ∈ past, e.party = some i ∧ e.ask = .now ∧ e.reading = now

/-- Has a party read the clock, and this state of a bucket? -/
def HasRead (b : Bucket) (i : ι) (past : List (Moment ι)) (now : UInt64)
    (state : Option TokenState) : Prop :=
  HasClock i past now ∧ ∃ e ∈ past, e.party = some i ∧ e.ask = b.stateLoad ∧
    e.before.unavailable = false ∧
    b.reads (e.before.live? b.key.stateKey e.reading) = .ok state

/-- Has a party stored a state of a bucket, and nothing else under that key? -/
def HasStored (b : Bucket) (i : ι) (past : List (Moment ι)) (s : TokenState) : Prop :=
  ∃ e ∈ past, e.party = some i ∧ e.ask = b.stateSave s ∧ storesOf i b.key.stateKey past =
    [⟨s.encode, Memory.expiry e.reading b.config.stateTtl⟩]

/-- Is the past what a take of an outcome leaves?  A failure has stored nothing. -/
def CameTo (b : Bucket) (n : UInt64) (i : ι) (past : List (Moment ι)) : TakeOutcome → Prop
  | .failed error => error.isBackendFailure = true ∧ storesOf i b.key.stateKey past = []
  | .stored now state =>
    b.HasRead i past now state ∧ b.HasStored i past (leftOf (b.refilled state now) n)

/-- Is the past what a take leaves on its way to a stage? -/
def Account (b : Bucket) (n : UInt64) (i : ι) (past : List (Moment ι)) : TakeStage → Prop
  | .outside | .entered => storesOf i b.key.stateKey past = []
  | .clocked now => HasClock i past now ∧ storesOf i b.key.stateKey past = []
  | .loaded now state => b.HasRead i past now state ∧ storesOf i b.key.stateKey past = []
  | .owing outcome | .finished outcome => b.CameTo n i past outcome

/-- Did a release of a party fail? -/
def ReleaseFailed (b : Bucket) (token : String) (i : ι) (past : List (Moment ι)) : Prop :=
  ∃ e ∈ past, e.party = some i ∧ e.ask = b.lockRelease token ∧ e.before.unavailable = true

/-- Is the token of a take gone where the take does not hold the lock? -/
def Unlocked (b : Bucket) (token : String) (i : ι) (past : List (Moment ι)) (m : Memory) :
    TakeStage → Prop
  | .outside => (b.guardOf token).IsGone m
  | .finished _ => (b.guardOf token).IsGone m ∨ b.ReleaseFailed token i past
  | _ => True

theorem isBackendFailure_of_reads {text : Option String} {error : LimitError}
    (h : b.reads text = .error error) : error.isBackendFailure = true := by
  cases text with
  | none => cases h
  | some text =>
      simp only [reads] at h
      split at h
      · cases h
      · cases h
        rfl

omit [DecidableEq ι] in
theorem HasClock.later (h : HasClock i older now) : HasClock i (e :: older) now :=
  h.imp fun _ hd => ⟨List.mem_cons_of_mem _ hd.1, hd.2⟩

omit [DecidableEq ι] in
theorem HasRead.later (h : b.HasRead i older now state) : b.HasRead i (e :: older) now state :=
  ⟨h.1.later, h.2.imp fun _ hd => ⟨List.mem_cons_of_mem _ hd.1, hd.2⟩⟩

theorem HasStored.later (h : b.HasStored i older s)
    (hsame : storesOf i b.key.stateKey (e :: older) = storesOf i b.key.stateKey older) :
    b.HasStored i (e :: older) s := by
  obtain ⟨d, hd, hparty, hask, hstored⟩ := h
  exact ⟨d, List.mem_cons_of_mem _ hd, hparty, hask, hsame.trans hstored⟩

theorem HasStored.append {newer : List (Moment ι)} (h : b.HasStored i older s)
    (hothers : ∀ e ∈ newer, e.party ≠ some i) : b.HasStored i (newer ++ older) s := by
  obtain ⟨d, hd, hparty, hask, hstored⟩ := h
  exact ⟨d, List.mem_append_right _ hd, hparty, hask,
    (storesOf_append_of_others hothers).trans hstored⟩

/-- A moment in which the take stores nothing leaves its account. -/
theorem Account.later (h : b.Account n i older stage)
    (hsame : storesOf i b.key.stateKey (e :: older) = storesOf i b.key.stateKey older) :
    b.Account n i (e :: older) stage := by
  have hcame : ∀ outcome, b.CameTo n i older outcome → b.CameTo n i (e :: older) outcome := by
    rintro (error | ⟨now, state⟩) hcame
    · exact ⟨hcame.1, hsame.trans hcame.2⟩
    · exact ⟨hcame.1.later, hcame.2.later hsame⟩
  cases stage with
  | outside => exact hsame.trans h
  | entered => exact hsame.trans h
  | clocked now => exact ⟨h.1.later, hsame.trans h.2⟩
  | loaded now state => exact ⟨h.1.later, hsame.trans h.2⟩
  | owing outcome => exact hcame outcome h
  | finished outcome => exact hcame outcome h

/-- The account goes on with each answer. -/
theorem Account.advances (h : b.Account n i older stage)
    (hadvances : Advances b token n e stage stage') (he : e.Answered) (hparty : e.party = some i) :
    b.Account n i (e :: older) stage' := by
  have hno {ask : Ask} (hask : e.ask = ask)
      (hne : ∀ text ttl, ask ≠ .store (.set b.key.stateKey text ttl)) :
      storesOf i b.key.stateKey (e :: older) = storesOf i b.key.stateKey older := by
    refine storesOf_cons_of_none (Moment.stored?_of_not_saves ?_)
    rintro ⟨text, ttl, hset⟩
    exact hne text ttl (hask.symm.trans hset)
  cases hadvances with
  | notes hask => exact h.later (hno hask nofun)
  | pauses hask => exact h.later (hno hask nofun)
  | waits hask => exact h.later (hno hask nofun)
  | enters hask => exact h.later (hno hask nofun)
  | misses hask => exact ⟨rfl, (hno hask nofun).trans h⟩
  | clocks hask =>
      exact ⟨⟨e, List.mem_cons_self, hparty, hask, rfl⟩, (hno hask nofun).trans h⟩
  | loads hask hup now =>
      obtain ⟨hclock, hnone⟩ := h.later (hno hask nofun)
      cases hreads : b.reads (e.before.live? b.key.stateKey e.reading) with
      | error error => exact ⟨isBackendFailure_of_reads hreads, hnone⟩
      | ok state =>
          exact ⟨⟨hclock, e, List.mem_cons_self, hparty, hask, hup, hreads⟩, hnone⟩
  | loadFails hask => exact ⟨rfl, (h.later (hno hask nofun)).2⟩
  | saves now state hask hup =>
      rcases Moment.stored?_of_set he hask with ⟨-, hstored, -⟩ | ⟨hdown, -⟩
      · refine ⟨h.1.later, e, List.mem_cons_self, hparty, hask, ?_⟩
        rw [storesOf_cons_of_stored hparty hstored, h.2]
      · cases hup.symm.trans hdown
  | saveFails now state hask hdown =>
      rcases Moment.stored?_of_set he hask with ⟨hup, -⟩ | ⟨-, hstored, -⟩
      · cases hup.symm.trans hdown
      · exact ⟨rfl, (storesOf_cons_of_none hstored).trans h.2⟩
  | releases hask outcome => exact h.later (hno hask nofun)

/-- A take stores once at most. -/
theorem Account.length_storesOf_le_one (h : b.Account n i older stage) :
    (storesOf i b.key.stateKey older).length ≤ 1 := by
  have hnone : ∀ {stored : List MemoryEntry}, stored = [] → stored.length ≤ 1 := by
    rintro stored rfl
    exact Nat.zero_le 1
  have hcame : ∀ outcome, b.CameTo n i older outcome →
      (storesOf i b.key.stateKey older).length ≤ 1 := by
    rintro (error | ⟨now, state⟩) hcame
    · exact hnone hcame.2
    · obtain ⟨e, -, -, -, hstored⟩ := hcame.2
      rw [hstored]
      exact Nat.le_refl 1
  cases stage with
  | outside => exact hnone h
  | entered => exact hnone h
  | clocked now => exact hnone h.2
  | loaded now state => exact hnone h.2
  | owing outcome => exact hcame outcome h
  | finished outcome => exact hcame outcome h

/-! ## The lock after a take -/

omit [DecidableEq ι] in
theorem ReleaseFailed.later (h : b.ReleaseFailed token i older) :
    b.ReleaseFailed token i (e :: older) :=
  h.imp fun _ hd => ⟨List.mem_cons_of_mem _ hd.1, hd.2⟩

omit [DecidableEq ι] in
/-- A moment that leaves a gone token gone is not noticed outside the lock. -/
theorem Unlocked.later (h : b.Unlocked token i older m stage)
    (hgone : (b.guardOf token).IsGone m → (b.guardOf token).IsGone m') :
    b.Unlocked token i (e :: older) m' stage := by
  cases stage with
  | outside => exact hgone h
  | finished outcome => exact h.imp hgone ReleaseFailed.later
  | _ => trivial

omit [DecidableEq ι] in
/-- Outside the lock the token stays gone, and a release that is answered takes it away. -/
theorem Unlocked.advances (h : b.Unlocked token i older e.before stage)
    (hadvances : Advances b token n e stage stage') (he : e.Answered) (hparty : e.party = some i) :
    b.Unlocked token i (e :: older) e.after stage' := by
  have hleaves : Leaves (b.guardOf token) e.ask →
      (b.guardOf token).IsGone e.before → (b.guardOf token).IsGone e.after :=
    fun hask hgone => hgone.after_of_leaves he hask
  cases hadvances with
  | notes hask => exact h.later (hleaves (by rw [hask]; trivial))
  | pauses hask => exact h.later (hleaves (by rw [hask]; trivial))
  | waits hask hgrant =>
      refine Guard.IsGone.after h he ?_ (by rw [hgrant]; nofun)
      intro ttl hset
      cases hask.symm.trans hset
  | misses hask hdown =>
      rw [he.after_of_outage hdown]
      exact .inl h
  | releases hask outcome =>
      rcases Moment.freed?_of_release (g := b.guardOf token) he hask with hdown | hfreed
      · exact .inr ⟨e, List.mem_cons_self, hparty, hask, hdown⟩
      · exact .inl (Guard.isGone_of_freed? he hfreed)
  | loads hask hup now =>
      cases b.reads (e.before.live? b.key.stateKey e.reading) <;> trivial
  | enters | clocks | loadFails | saves | saveFails => trivial

/-! ## A take in a fleet -/

/-- A take stands in a stage: it goes on as a take of that stage does, the past is its account, and
its token is gone where it does not hold the lock, unless it was stored before or by others. -/
structure Stands (b : Bucket) (token : String) (n : UInt64) (i : ι) (m₀ : Memory)
    (f : Fleet ι (Except LimitError Unit)) (stage : TakeStage) : Prop where
  task : ∃ p, f.task i = some p ∧ b.Proceeds token n stage p
  account : b.Account n i f.past stage
  lock : (b.guardOf token).IsGone m₀ →
    (∀ e ∈ f.past, e.party ≠ some i → Leaves (b.guardOf token) e.ask) →
    b.Unlocked token i f.past f.memory stage

variable {m₀ : Memory} {f f' : Fleet ι (Except LimitError Unit)}

theorem stands_start {program : ι → Program (Except LimitError Unit)}
    (h : program i = b.take token n) : Stands b token n i m₀ (.start m₀ program) .outside where
  task := ⟨_, congrArg some h, b.proceeds_take token n⟩
  account := rfl
  lock hgone _ := hgone

/-- What others do leaves a take where it stands. -/
theorem Stands.apart (h : Stands b token n i m₀ f stage) (hapart : f.Apart i f') :
    Stands b token n i m₀ f' stage := by
  obtain ⟨p, hp, hproceeds⟩ := h.task
  refine ⟨⟨p, hapart.task.trans hp, hproceeds⟩, ?_, ?_⟩
  · rcases hapart.past with ⟨hpast, -⟩ | ⟨party, reading, ask, hparty, hpast, -⟩
    · rw [hpast]
      exact h.account
    · rw [hpast]
      exact h.account.later (storesOf_cons_of_other hparty)
  · intro hgone hothers
    rcases hapart.past with ⟨hpast, hentries⟩ | ⟨party, reading, ask, hparty, hpast, hmemory⟩
    · rw [hpast] at hothers ⊢
      have hlock := h.lock hgone hothers
      cases stage with
      | outside => exact Guard.isGone_congr hentries hlock
      | finished outcome => exact hlock.imp_left (Guard.isGone_congr hentries)
      | _ => trivial
    · rw [hpast] at hothers ⊢
      rw [hmemory]
      obtain ⟨hhere, hothers⟩ := List.forall_mem_cons.mp hothers
      refine (h.lock hgone hothers).later fun hgone => ?_
      exact Guard.IsGone.after_of_leaves (e := .of party reading ask f.memory) hgone
        ⟨party, reading, ask, f.memory, rfl⟩ (hhere hparty)

/-- A take that is answered advances. -/
theorem Stands.goes {ask : Ask} {held : List Guard}
    {resume : ask.Answer → Program (Except LimitError Unit)} (h : Stands b token n i m₀ f stage)
    (htask : f.task i = some (.ask ask held resume)) (r : UInt64) :
    ∃ stage', Advances b token n (Moment.of (some i) r ask f.memory) stage stage' ∧
      Stands b token n i m₀ (f.goOn i (.of (some i) r ask f.memory)
        (some (resume (answerAt Memory.call r ask f.memory).1))) stage' := by
  obtain ⟨p, hp, hproceeds⟩ := h.task
  cases hp.symm.trans htask
  obtain ⟨stage', hadvances, hnext⟩ := hproceeds.advances i r f.memory
  have he : (Moment.of (some i) r ask f.memory).Answered := ⟨_, _, _, _, rfl⟩
  refine ⟨stage', hadvances, ⟨_, if_pos rfl, hnext⟩, h.account.advances hadvances he rfl, ?_⟩
  intro hgone hothers
  exact (h.lock hgone (List.forall_mem_cons.mp hothers).2).advances hadvances he rfl

/-- An act drops a take, answers it, or is one that it has no part in. -/
theorem Stands.step_cases (h : Stands b token n i m₀ f stage) (a : Act ι) :
    (f.step a).task i = none ∨
    (∃ e stage', (e.party = some i ∧ e.before = f.memory ∧ (f.step a).past = e :: f.past) ∧
      Advances b token n e stage stage' ∧ Stands b token n i m₀ (f.step a) stage') ∨
    f.Apart i (f.step a) ∧ Stands b token n i m₀ (f.step a) stage := by
  rcases f.step_party_cases a i with ⟨r, ask, held, resume, htask, hstep⟩ | ⟨-, hnone⟩ | hapart
  · obtain ⟨stage', hadvances, hgoes⟩ := h.goes htask r
    rw [hstep]
    exact .inr (.inl ⟨_, stage', ⟨rfl, rfl, rfl⟩, hadvances, hgoes⟩)
  · exact .inl hnone
  · exact .inr (.inr ⟨hapart, h.apart hapart⟩)

/-- An act leaves a take in a stage, or drops it. -/
theorem Stands.step (h : Stands b token n i m₀ f stage) (a : Act ι) :
    (f.step a).task i = none ∨ ∃ stage', Stands b token n i m₀ (f.step a) stage' := by
  rcases h.step_cases a with hnone | ⟨_, stage', -, -, hgoes⟩ | ⟨-, hstands⟩
  · exact .inl hnone
  · exact .inr ⟨stage', hgoes⟩
  · exact .inr ⟨stage, hstands⟩

/-- In a run a take stands in a stage until it is dropped. -/
theorem Stands.run (h : Stands b token n i m₀ f stage) (acts : List (Act ι)) :
    (f.run acts).task i = none ∨ ∃ stage', Stands b token n i m₀ (f.run acts) stage' := by
  induction acts generalizing f stage with
  | nil => exact .inr ⟨stage, h⟩
  | cons a acts ih =>
      rcases h.step a with hnone | ⟨stage', hstands⟩
      · obtain ⟨_, -, -, hgone⟩ := (f.step a).exists_newer_run acts i
        exact .inl (hgone hnone).1
      · exact ih hstands

/-! ## A take reads once -/

/-- What a take in a stage has asked, about the clock and the state: not yet, or what it knows. -/
def Knows (b : Bucket) : TakeStage → Moment ι → Prop
  | .outside, e | .entered, e => e.ask ≠ .now ∧ e.ask ≠ b.stateLoad
  | .clocked now, e => (e.ask = .now → e.reading = now) ∧ e.ask ≠ b.stateLoad
  | .loaded now state, e | .owing (.stored now state), e | .finished (.stored now state), e =>
    (e.ask = .now → e.reading = now) ∧
      (e.ask = b.stateLoad → b.reads (e.before.live? b.key.stateKey e.reading) = .ok state)
  | _, _ => True

omit [DecidableEq ι] in
theorem knows_of_neither (stage : TakeStage) (hclock : e.ask ≠ .now) (hload : e.ask ≠ b.stateLoad) :
    b.Knows stage e := by
  have hcame : ∀ outcome, b.Knows (.owing outcome) e ∧ b.Knows (.finished outcome) e := by
    rintro (error | ⟨now, state⟩)
    · exact ⟨trivial, trivial⟩
    · have hneither : b.Knows (.loaded now state) e :=
        ⟨fun h => absurd h hclock, fun h => absurd h hload⟩
      exact ⟨hneither, hneither⟩
  cases stage with
  | outside | entered => exact ⟨hclock, hload⟩
  | clocked now => exact ⟨fun h => absurd h hclock, hload⟩
  | loaded now state => exact ⟨fun h => absurd h hclock, fun h => absurd h hload⟩
  | owing outcome => exact (hcame outcome).1
  | finished outcome => exact (hcame outcome).2

omit [DecidableEq ι] in
/-- A take that advances still knows what it knew. -/
theorem Knows.advances {d : Moment ι} (h : b.Knows stage d)
    (hadvances : Advances b token n e stage stage') : b.Knows stage' d := by
  cases hadvances with
  | notes | pauses | waits | enters | saves => exact h
  | clocks => exact ⟨fun hclock => absurd hclock h.1, h.2⟩
  | loads =>
      cases b.reads (e.before.live? b.key.stateKey e.reading) with
      | error error => trivial
      | ok state => exact ⟨h.1, fun hload => absurd hload h.2⟩
  | releases hask outcome =>
      cases outcome with
      | failed error => trivial
      | stored now state => exact h
  | misses | loadFails | saveFails => trivial

omit [DecidableEq ι] in
/-- A take that advances knows what it was answered. -/
theorem Advances.knows (hadvances : Advances b token n e stage stage') : b.Knows stage' e := by
  have hno {ask : Ask} {stage : TakeStage} (hask : e.ask = ask) (hclock : ask ≠ .now)
      (hload : ask ≠ b.stateLoad) : b.Knows stage e :=
    knows_of_neither stage (hask ▸ hclock) (hask ▸ hload)
  cases hadvances with
  | notes hask | pauses hask | waits hask | enters hask => exact hno hask nofun nofun
  | saves now state hask => exact hno hask nofun nofun
  | releases hask outcome => exact hno hask nofun nofun
  | clocks hask => exact ⟨fun _ => rfl, by rw [hask]; nofun⟩
  | loads hask hup now =>
      cases hreads : b.reads (e.before.live? b.key.stateKey e.reading) with
      | error error => trivial
      | ok state => exact ⟨fun hclock => (by cases hask.symm.trans hclock), fun _ => hreads⟩
  | misses | loadFails | saveFails => trivial

/-- In a run a take knows all that it has read, until it is dropped. -/
theorem stands_run_knows {program : ι → Program (Except LimitError Unit)}
    (h : program i = b.take token n) (acts : List (Act ι)) :
    ((Fleet.start m₀ program).run acts).task i = none ∨
      ∃ stage, Stands b token n i m₀ ((Fleet.start m₀ program).run acts) stage ∧
        ∀ e ∈ ((Fleet.start m₀ program).run acts).past, e.party = some i → b.Knows stage e := by
  induction acts using List.reverseRecOn with
  | nil => exact .inr ⟨.outside, stands_start h, fun _ he => absurd he List.not_mem_nil⟩
  | append_singleton acts a ih =>
      rw [Fleet.run_concat]
      generalize (Fleet.start m₀ program).run acts = f at *
      rcases ih with hnone | ⟨stage, hstands, hknows⟩
      · obtain ⟨_, -, -, hgone⟩ := f.exists_newer_run [a] i
        exact .inl (hgone hnone).1
      · rcases hstands.step_cases a with
          hnone | ⟨e, stage', ⟨-, -, hpast⟩, hadvances, hgoes⟩ | ⟨hapart, hstands⟩
        · exact .inl hnone
        · refine .inr ⟨stage', hgoes, ?_⟩
          rw [hpast]
          exact List.forall_mem_cons.mpr
            ⟨fun _ => hadvances.knows, fun d hd hparty => (hknows d hd hparty).advances hadvances⟩
        · refine .inr ⟨stage, hstands, ?_⟩
          rcases hapart.past with ⟨hpast, -⟩ | ⟨party, reading, ask, hparty, hpast, -⟩
          · rw [hpast]
            exact hknows
          · rw [hpast]
            exact List.forall_mem_cons.mpr ⟨fun hsame => absurd hsame hparty, hknows⟩

/-! ## The questions of takes -/

/-- What a party that makes a take asks are questions of the take. -/
theorem takeAsk_of_party {program : ι → Program (Except LimitError Unit)}
    (h : program i = b.take token n) (acts : List (Act ι))
    (he : e ∈ ((Fleet.start m₀ program).run acts).past) (hparty : e.party = some i) :
    TakeAsk b token e.ask := by
  refine Fleet.asks_of_mem_past_run (P := fun party ask => party = some i → TakeAsk b token ask)
    ?_ (fun _ => Routine.asks_of_forall fun _ _ => nofun) acts he hparty
  intro j
  by_cases hj : j = i
  · rw [hj, h]
    exact (asks_takeAsk b token n).weaken fun _ _ hask _ => hask
  · exact Routine.asks_of_forall fun _ _ hparty => absurd (Option.some.inj hparty) hj

omit [DecidableEq ι] in
theorem leaves_of_takeAsk {b' : Bucket} {token' : String} {ask : Ask}
    (h : TakeAsk b' token' ask) (htoken : token' ≠ token)
    (hkey : b'.key.stateKey ≠ b.key.lockKey) : Leaves (b.guardOf token) ask := by
  rcases h with hinside | rfl | ⟨length, rfl⟩
  · cases ask with
    | store c =>
        cases c with
        | set k text ttl =>
            obtain rfl : k = b'.key.stateKey := hinside
            exact fun hlock => absurd hlock hkey
        | setIfAbsent k value ttl => exact hinside.elim
        | _ => trivial
    | _ => trivial
  · exact fun _ => htoken
  · trivial

/-- Others that make takes under other tokens do not store the token of a take. -/
theorem leaves_of_others {program : ι → Program (Except LimitError Unit)}
    (hothers : ∀ j ≠ i, ∃ b' token' n', program j = Bucket.take b' token' n' ∧ token' ≠ token ∧
      b'.key.stateKey ≠ b.key.lockKey) (acts : List (Act ι))
    (he : e ∈ ((Fleet.start m₀ program).run acts).past) (hparty : e.party ≠ some i) :
    Leaves (b.guardOf token) e.ask := by
  refine Fleet.asks_of_mem_past_run
    (P := fun party ask => party ≠ some i → Leaves (b.guardOf token) ask) ?_ ?_ acts he hparty
  · intro j
    by_cases hj : j = i
    · subst hj
      exact Routine.asks_of_forall fun _ _ hne => absurd rfl hne
    · obtain ⟨b', token', n', hprogram, htoken, hkey⟩ := hothers j hj
      rw [hprogram]
      exact (asks_takeAsk b' token' n').weaken fun _ _ hask _ => leaves_of_takeAsk hask htoken hkey
  · exact fun g => (asks_giveUp g).weaken fun _ _ hask _ => leaves_of_abandons hask

/-- Under the key of its state a take leaves what it stored last, or what was there from the start,
if nobody else writes there. -/
theorem remains_run {program : ι → Program (Except LimitError Unit)}
    (h : program i = b.take token n) (acts : List (Act ι))
    (halone : ∀ e ∈ ((Fleet.start m₀ program).run acts).past,
      e.Writes b.key.stateKey → e.party = some i) :
    Remains b.key.stateKey ((storesOf i b.key.stateKey
        ((Fleet.start m₀ program).run acts).past).head?.or (m₀.find? b.key.stateKey))
      ((Fleet.start m₀ program).run acts).past ((Fleet.start m₀ program).run acts).memory := by
  refine remains_of_linked (Fleet.linked_run rfl) fun e he hwrites => ?_
  have hparty := halone e he hwrites
  exact ⟨hparty, saves_of_takeAsk (takeAsk_of_party h acts he hparty) hwrites⟩

end Bucket

end FlowControl
