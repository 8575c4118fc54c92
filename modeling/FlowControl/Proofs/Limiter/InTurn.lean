import FlowControl.Proofs.Limiter.Refill
import FlowControl.Proofs.Limiter.StateText
import FlowControl.Proofs.Limiter.Surroundings

/-!
# Takes one after another

Each take runs to its end while the clock of bucket and store shows one reading,
over a store that is kept from one take to the next.  The store is a rule for
answering calls: the store in memory, or the same store whose texts outlast their
expiry as far as `get` is concerned.

`takeAt_spec` says what one take does between others: it gets its tokens if the
refilled state holds enough of them, and what it leaves is stored under the
bucket's key.  A take during which the clock moves is not covered here.
-/

namespace FlowControl

/-- The rule of a store whose texts are read for ever: `get` passes over their expiry. -/
def Memory.callLasting (m : Memory) (now : UInt64) :
    (c : StoreCall) → Except StoreFault c.Value × Memory
  | .get key =>
    if m.unavailable then (.error Memory.outage, m)
    else (.ok ((m.find? key).map (·.value)), m)
  | .set key value ttl => m.call now (.set key value ttl)
  | .setIfAbsent key value ttl => m.call now (.setIfAbsent key value ttl)
  | .deleteIfEqual key expected => m.call now (.deleteIfEqual key expected)
  | .delete key => m.call now (.delete key)

/-- A take: the reading at which it is made, its token for the lock, and how much it takes. -/
structure TakeCall where
  reading : UInt64
  token : String
  amount : UInt64
  deriving DecidableEq, Repr

namespace Bucket

/-- One take on its own. -/
def takeAt (b : Bucket) (rule : StoreRule) (x : TakeCall) (m : Memory) :
    Except LimitError Unit × Memory :=
  (b.take x.token x.amount).run (Limiter.answerAt rule x.reading) m

/-- Takes one after another: their results, and the store they leave. -/
def takesInTurn (b : Bucket) (rule : StoreRule) :
    List TakeCall → Memory → List (Except LimitError Unit) × Memory
  | [], m => ([], m)
  | x :: xs, m =>
    let (result, m) := b.takeAt rule x m
    let (results, m) := b.takesInTurn rule xs m
    (result :: results, m)

end Bucket

/-- Are the takes made at readings that never go back? -/
def TakeCall.InOrder (xs : List TakeCall) : Prop :=
  xs.Pairwise fun x y => x.reading ≤ y.reading

namespace TakeCall

variable {x : TakeCall} {xs : List TakeCall}

theorem InOrder.head (h : InOrder (x :: xs)) : ∀ y ∈ xs, x.reading ≤ y.reading :=
  (List.pairwise_cons.mp h).1

theorem InOrder.tail (h : InOrder (x :: xs)) : InOrder xs := (List.pairwise_cons.mp h).2

end TakeCall

/-! ## Rules that differ in what they show -/

/-- A rule that answers `get` by what it shows and every other call as the store in memory does.
A `get` leaves the other keys alone. -/
structure StoreRule.Shows (rule : StoreRule)
    (shown : Memory → String → UInt64 → Option String) : Prop where
  get : ∀ (m : Memory) (now : UInt64) (key : String), m.unavailable = false →
    ∃ m', rule m now (.get key) = (.ok (shown m key now), m') ∧ m'.unavailable = false ∧
      ∀ other, other ≠ key → m'.find? other = m.find? other
  others : ∀ (m : Memory) (now : UInt64) (c : StoreCall), c.method ≠ .get →
    rule m now c = m.call now c
  congr : ∀ (m m' : Memory) (key : String) (now : UInt64), m.find? key = m'.find? key →
    shown m key now = shown m' key now

theorem shows_call : StoreRule.Shows Memory.call Memory.live? where
  get m now key h := by
    refine ⟨m.purge key now, ?_, by simpa using h, fun other hne => Memory.find?_purge_of_ne hne⟩
    rw [Memory.call_of_available h]
    rfl
  others _ _ _ _ := rfl
  congr _ _ _ _ h := Memory.live?_congr h

/-- The lasting store shows every text that was stored last. -/
theorem shows_callLasting :
    StoreRule.Shows Memory.callLasting fun m key _ => (m.find? key).map (·.value) where
  get m now key h := ⟨m, by simp [Memory.callLasting, h], h, fun _ _ => rfl⟩
  others m now c h := by
    cases c with
    | get key => exact absurd rfl h
    | _ => rfl
  congr m m' key now h := by rw [h]

/-! ## What one take does to a store at rest -/

namespace Limiter

variable {rule : StoreRule} {shown : Memory → String → UInt64 → Option String} {now : UInt64}
  {m : Memory}

/-- A free lock is had at the first try. -/
theorem run_acquire (hrule : rule.Shows shown) (config : LockConfig) {key : String}
    (token : String) (hup : m.unavailable = false) (hfree : m.live? key now = none) :
    (acquire config key token).run (answerAt rule now) m =
      (.ok ⟨key, token⟩, m.put key ⟨token, Memory.expiry now config.ttl⟩) := by
  have hwrite : rule m now (.setIfAbsent key token config.ttl) =
      (.ok true, m.put key ⟨token, Memory.expiry now config.ttl⟩) := by
    rw [hrule.others m now _ (by simp [StoreCall.method]), Memory.call_of_available hup,
      Memory.answer_setIfAbsent_of_free hfree]
  unfold acquire
  rw [acquireFrom, Routine.bind_eq, Routine.run_bind, run_store, hwrite]
  simp only [Routine.bind_eq, Routine.run_bind, Routine.run_holding, run_note, Routine.pure_eq,
    Routine.run_done]

/-- Giving a lock back leaves its key without an entry if it holds the owner's token, whether or
not that has expired. -/
theorem run_release (hrule : rule.Shows shown) (now : UInt64) {key token : String}
    {e : MemoryEntry} (hup : m.unavailable = false) (hheld : m.find? key = some e)
    (hvalue : e.value = token) :
    ∃ m', (release ⟨key, token⟩).run (answerAt rule now) m = (.ok (), m') ∧
      m'.unavailable = false ∧ m'.find? key = none ∧
      ∀ other, other ≠ key → m'.find? other = m.find? other := by
  have hcall : rule m now (.deleteIfEqual key token) =
      (.ok (m.answer now (.deleteIfEqual key token)).1,
        (m.answer now (.deleteIfEqual key token)).2) := by
    rw [hrule.others m now _ (by simp [StoreCall.method]), Memory.call_of_available hup]
  by_cases hlive : m.live? key now = some token
  · refine ⟨m.erase key, ?_, by simpa using hup, Memory.find?_erase_self,
      fun other hne => Memory.find?_erase_of_ne hne⟩
    rw [Memory.answer_deleteIfEqual_of_live hlive] at hcall
    simp only [release, Routine.bind_eq, Routine.run_bind, Routine.run_holding]
    rw [run_store, hcall]
    rfl
  · -- The owner's own entry is not shown any more; the delete then purges it.
    have hexpired : ¬ now < e.expiresAt := fun hnow =>
      hlive (Memory.live?_eq_some_iff.mpr ⟨e, hheld, hnow, hvalue⟩)
    refine ⟨m.purge key now, ?_, by simpa using hup, ?_,
      fun other hne => Memory.find?_purge_of_ne hne⟩
    · rw [Memory.answer_deleteIfEqual_of_ne hlive] at hcall
      simp only [release, Routine.bind_eq, Routine.run_bind, Routine.run_holding]
      rw [run_store, hcall]
      rfl
    · rw [Memory.find?_purge_self, hheld]
      simp [Option.filter, hexpired]

end Limiter

namespace Bucket

open Limiter

/-- A state that was stored, and the reading at which it was. -/
structure Kept where
  state : TokenState
  writtenAt : UInt64

/-- A store between two takes: it answers, the bucket's lock is free, and under the bucket's
key is what the last take left, if there was one. -/
structure Keeps (b : Bucket) (kept : Option Kept) (m : Memory) : Prop where
  available : m.unavailable = false
  unlocked : m.find? b.key.lockKey = none
  stored : m.find? b.key.stateKey = kept.map fun k =>
    ⟨k.state.encode, Memory.expiry k.writtenAt b.config.stateTtl⟩

theorem keeps_empty (b : Bucket) : b.Keeps none Memory.empty := ⟨rfl, rfl, rfl⟩

/-- What is left at a reading of what was stored. -/
def standing (b : Bucket) (kept : Option Kept) (now : UInt64) : Option TokenState :=
  (kept.filter fun k => now < Memory.expiry k.writtenAt b.config.stateTtl).map (·.state)

/-- The answer of a take that found a refilled state. -/
def verdict (b : Bucket) (s : TokenState) (n : UInt64) : Except LimitError Unit :=
  if n ≤ s.tokens then .ok () else .error (.exceeded b.config.interval)

/-- What a take leaves of a refilled state. -/
def leftOf (s : TokenState) (n : UInt64) : TokenState :=
  if n ≤ s.tokens then s.spend n else s

variable {b : Bucket} {rule : StoreRule} {shown : Memory → String → UInt64 → Option String}
  {now : UInt64} {m : Memory}

theorem run_save (hrule : rule.Shows shown) (hup : m.unavailable = false) (s : TokenState) :
    (b.save s).run (answerAt rule now) m =
      (.ok (), m.put b.key.stateKey ⟨s.encode, Memory.expiry now b.config.stateTtl⟩) := by
  have hwrite : rule m now (.set b.key.stateKey s.encode b.config.stateTtl) =
      (.ok (), m.put b.key.stateKey ⟨s.encode, Memory.expiry now b.config.stateTtl⟩) := by
    rw [hrule.others m now _ (by simp [StoreCall.method]), Memory.call_of_available hup]
    rfl
  unfold save
  rw [Routine.bind_eq, Routine.run_bind, run_store, hwrite]
  rfl

/-- Loading gives the state whose text is shown. -/
theorem run_load (hrule : rule.Shows shown) (hup : m.unavailable = false)
    {stored : Option TokenState}
    (hshown : shown m b.key.stateKey now = stored.map TokenState.encode) :
    ∃ m', b.load.run (answerAt rule now) m = (.ok stored, m') ∧ m'.unavailable = false ∧
      ∀ other, other ≠ b.key.stateKey → m'.find? other = m.find? other := by
  obtain ⟨m', hget, hup', hothers⟩ := hrule.get m now b.key.stateKey hup
  rw [hshown] at hget
  refine ⟨m', ?_, hup', hothers⟩
  unfold load
  rw [Routine.bind_eq, Routine.run_bind, run_store, hget]
  cases stored with
  | none => rfl
  | some s =>
      simp only [Option.map_some, TokenState.parse_encode, Routine.pure_eq, Routine.run_done]

/-- Under the lock, a take answers by the refilled state and stores what it leaves. -/
theorem run_takeLocked (hrule : rule.Shows shown) (hup : m.unavailable = false)
    {stored : Option TokenState} (n : UInt64)
    (hshown : shown m b.key.stateKey now = stored.map TokenState.encode) :
    ∃ m', (b.takeLocked n).run (answerAt rule now) m =
        (b.verdict (b.refilled stored now) n, m') ∧
      m'.unavailable = false ∧
      m'.find? b.key.stateKey = some ⟨(leftOf (b.refilled stored now) n).encode,
        Memory.expiry now b.config.stateTtl⟩ ∧
      ∀ other, other ≠ b.key.stateKey → m'.find? other = m.find? other := by
  obtain ⟨m₁, hload, hup₁, hothers⟩ := run_load (b := b) hrule hup hshown
  refine ⟨m₁.put b.key.stateKey ⟨(leftOf (b.refilled stored now) n).encode,
    Memory.expiry now b.config.stateTtl⟩, ?_, by simpa using hup₁, Memory.find?_put_self _,
    fun other hne => by rw [Memory.find?_put_of_ne _ hne, hothers other hne]⟩
  by_cases henough : n ≤ (b.refilled stored now).tokens
  · simp only [takeLocked, Routine.bind_eq, Routine.run_bind, run_now, hload, henough, if_true,
      run_save hrule hup₁, verdict, leftOf]
  · simp only [takeLocked, Routine.bind_eq, Routine.run_bind, run_now, hload, henough, if_false,
      run_save hrule hup₁, run_note, Routine.pure_eq, Routine.run_done, verdict, leftOf]

/-- A take between others answers by the refilled state and stores what it leaves. -/
theorem takeAt_spec (hrule : rule.Shows shown) {kept : Option Kept} (hkeeps : b.Keeps kept m)
    (x : TakeCall) {stored : Option TokenState}
    (hshown : shown m b.key.stateKey x.reading = stored.map TokenState.encode) :
    ∃ m', b.takeAt rule x m = (b.verdict (b.refilled stored x.reading) x.amount, m') ∧
      b.Keeps (some ⟨leftOf (b.refilled stored x.reading) x.amount, x.reading⟩) m' := by
  have hne := b.key.lockKey_ne_stateKey
  have hfree : m.live? b.key.lockKey x.reading = none :=
    Memory.live?_of_find?_none hkeeps.unlocked
  have hacquire := run_acquire hrule b.config.lock x.token hkeeps.available hfree
  let m₁ := m.put b.key.lockKey ⟨x.token, Memory.expiry x.reading b.config.lock.ttl⟩
  have hshown₁ : shown m₁ b.key.stateKey x.reading = stored.map TokenState.encode := by
    rw [hrule.congr m₁ m _ _ (Memory.find?_put_of_ne _ (Ne.symm hne)), hshown]
  obtain ⟨m₂, htake, hup₂, hstate, hothers₂⟩ :=
    run_takeLocked (b := b) hrule (m := m₁) hkeeps.available x.amount hshown₁
  have hheld : m₂.find? b.key.lockKey =
      some ⟨x.token, Memory.expiry x.reading b.config.lock.ttl⟩ := by
    rw [hothers₂ _ hne]
    exact Memory.find?_put_self _
  obtain ⟨m₃, hrelease, hup₃, hunlocked, hothers₃⟩ :=
    run_release hrule x.reading hup₂ hheld rfl
  refine ⟨m₃, ?_, hup₃, hunlocked, by rw [hothers₃ _ (Ne.symm hne), hstate]; rfl⟩
  unfold takeAt take
  simp only [Routine.bind_eq, Routine.run_bind, hacquire, Routine.run_holding]
  rw [show m.put b.key.lockKey ⟨x.token, Memory.expiry x.reading b.config.lock.ttl⟩ = m₁ from rfl,
    htake]
  simp only [hrelease]
  by_cases henough : x.amount ≤ (b.refilled stored x.reading).tokens
  · rw [verdict, if_pos henough]
    rfl
  · rw [verdict, if_neg henough]
    rfl

/-- The first of several takes over the store in memory refills what has not expired. -/
theorem takesInTurn_call_cons {kept : Option Kept} (hkeeps : b.Keeps kept m) (x : TakeCall)
    (xs : List TakeCall) {s : TokenState}
    (hs : b.refilled (b.standing kept x.reading) x.reading = s) :
    ∃ m', b.Keeps (some ⟨leftOf s x.amount, x.reading⟩) m' ∧
      (b.takesInTurn Memory.call (x :: xs) m).1 =
        b.verdict s x.amount :: (b.takesInTurn Memory.call xs m').1 := by
  have hshown : m.live? b.key.stateKey x.reading =
      (b.standing kept x.reading).map TokenState.encode := by
    rw [Memory.live?_eq, hkeeps.stored]
    cases kept with
    | none => rfl
    | some k =>
        by_cases hlive : x.reading < Memory.expiry k.writtenAt b.config.stateTtl
        · simp [standing, Option.filter, hlive, UInt64.not_le.mpr hlive]
        · simp [standing, Option.filter, hlive, UInt64.not_lt.mp hlive]
  obtain ⟨m', htake, hkeeps'⟩ := takeAt_spec shows_call hkeeps x hshown
  rw [hs] at htake hkeeps'
  refine ⟨m', hkeeps', ?_⟩
  simp only [takesInTurn, htake]

/-- The first of several takes over the lasting store refills what was stored last. -/
theorem takesInTurn_callLasting_cons {kept : Option Kept} (hkeeps : b.Keeps kept m)
    (x : TakeCall) (xs : List TakeCall) {s : TokenState}
    (hs : b.refilled (kept.map (·.state)) x.reading = s) :
    ∃ m', b.Keeps (some ⟨leftOf s x.amount, x.reading⟩) m' ∧
      (b.takesInTurn Memory.callLasting (x :: xs) m).1 =
        b.verdict s x.amount :: (b.takesInTurn Memory.callLasting xs m').1 := by
  have hshown : (m.find? b.key.stateKey).map (·.value) =
      (kept.map (·.state)).map TokenState.encode := by
    rw [hkeeps.stored]
    cases kept <;> rfl
  obtain ⟨m', htake, hkeeps'⟩ := takeAt_spec shows_callLasting hkeeps x hshown
  rw [hs] at htake hkeeps'
  refine ⟨m', hkeeps', ?_⟩
  simp only [takesInTurn, htake]

/-! ## What an expired state would have become -/

/-- What a take leaves of a refilled state fits at the reading of the take. -/
theorem fits_leftOf (b : Bucket) (stored : Option TokenState) (now n : UInt64) :
    (leftOf (b.refilled stored now) n).Fits b.config.capacity now := by
  have hfits : (b.refilled stored now).Fits b.config.capacity now :=
    TokenState.fits_refill _ _ _ _
  unfold leftOf
  split
  · next henough => exact hfits.spend henough
  · exact hfits

/-- A state that has expired was left alone for as long as states are kept, unless the clock
stands at its last reading. -/
theorem written_of_expired {k : Kept} (hnow : now.toNat < Word.maxNat)
    (hexpired : ¬ now < Memory.expiry k.writtenAt b.config.stateTtl) :
    k.writtenAt.toNat + b.config.stateTtl.millisWord.toNat ≤ now.toNat := by
  have hle := UInt64.le_iff_toNat_le.mp (UInt64.not_lt.mp hexpired)
  rw [Memory.expiry, Word.toNat_add] at hle
  omega

/-- If states are kept for as long as the bucket takes to fill up, then a reading refills what
is left to the same state as it would have refilled what was stored. -/
theorem refilled_standing {k : Kept} (hfits : k.state.Fits b.config.capacity k.writtenAt)
    (hlife : b.config.capacity.toNat * (TokenState.step b.config.intervalMillis).toNat ≤
      b.config.stateTtl.millisWord.toNat)
    (hnow : now.toNat < Word.maxNat) :
    b.refilled (b.standing (some k) now) now = b.refilled (some k.state) now := by
  by_cases hlive : now < Memory.expiry k.writtenAt b.config.stateTtl
  · simp [standing, Option.filter, hlive]
  · have hidle := written_of_expired hnow hlive
    have hlast := hfits.lastRefillAt_le
    have hfull : k.state.refill now b.config.intervalMillis b.config.capacity =
        .full b.config.capacity now := TokenState.refill_of_long_idle (by omega)
    have hgone : b.standing (some k) now = none := by
      simp [standing, Option.filter, hlive]
    rw [hgone]
    show TokenState.refill (.full _ _) _ _ _ = TokenState.refill k.state _ _ _
    rw [hfull, TokenState.refill_full]

end Bucket

end FlowControl
