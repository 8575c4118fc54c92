import FlowControl.Proofs.Limiter.LockHistory
import FlowControl.Proofs.Limiter.TakeProgram

/-!
# Safety of locks

Parties take a lock, work under it and give it back; each has a token of its own.
They are interleaved in any order, wait as long as they like, may be dropped
anywhere and leave late deletes to the background, and the store may fail for a
while.  At every moment at most one of them holds the lock, and then its token is
the stored value.  A delete by a party whose lock has expired, was taken over or was
released before leaves the lock as it is for everybody else.

Nothing is said about who gets the lock, or when.  The work of a party may read the
lock's key but must not write it.
-/

namespace FlowControl

namespace Limiter

/-- Works while a lock is held: takes the lock, works, and gives it back. -/
def underLock {α : Type} (config : LockConfig) (key token : String) (work : Program α) :
    Program (Except LimitError α) := do
  match ← acquire config key token with
  | .error error => pure (.error error)
  | .ok guard =>
    let result ← work.holding guard
    let _ ← release guard
    pure (.ok result)

/-- Questions that do not write a key, asked by who holds no guard of it. -/
def Spares (key : String) (ask : Ask) (held : List Guard) : Prop :=
  (match ask with
    | .store (.get _) => True
    | .store c => c.key ≠ key
    | _ => True) ∧
  ∀ g ∈ held, g.key ≠ key

/-- Questions that treat a key as a lock of one owner, asked by who holds no guard of another. -/
def OwnsLock (key token : String) (ttl : Duration) (ask : Ask) (held : List Guard) : Prop :=
  (match ask with
    | .store (.setIfAbsent k v life) => k = key → v = token ∧ life = ttl
    | .store (.deleteIfEqual k v) => k = key → v = token
    | .store (.set k _ _) | .store (.delete k) => k ≠ key
    | _ => True) ∧
  ∀ g ∈ held, g.key = key → g.token = token

/-- Questions of the background, which takes no lock. -/
def Abandons (key : String) : Ask → Prop
  | .store (.setIfAbsent k _ _) | .store (.set k _ _) | .store (.delete k) => k ≠ key
  | _ => True

variable {α : Type} {key token : String} {ttl : Duration} {ask : Ask} {held : List Guard}
  {config : LockConfig} {work : Program α}

theorem lockAsk_of_ownsLock (h : OwnsLock key token ttl ask held) : LockAsk key ttl ask := by
  unfold LockAsk
  split
  · exact fun hkey => (h.1 hkey).2
  · exact h.1
  · exact h.1
  · trivial

theorem lockAsk_of_abandons (h : Abandons key ask) : LockAsk key ttl ask := by
  unfold LockAsk
  split
  · exact fun hkey => absurd hkey h
  · exact h
  · exact h
  · trivial

theorem ownsLock_of_spares (h : Spares key ask held) (guard : Guard)
    (hguard : guard.token = token) : OwnsLock key token ttl ask (held ++ [guard]) := by
  obtain ⟨hask, hheld⟩ := h
  constructor
  · cases ask with
    | store c =>
        cases c with
        | get k => trivial
        | set k v life => exact hask
        | setIfAbsent k v life => exact fun hkey => absurd hkey hask
        | deleteIfEqual k v => exact fun hkey => absurd hkey hask
        | delete k => exact hask
    | _ => trivial
  · intro g hg hkey
    rcases List.mem_append.mp hg with hg | hg
    · exact absurd hkey (hheld g hg)
    · rw [List.mem_singleton.mp hg]
      exact hguard

theorem ownsLock_own {g : Guard} (hg : g ∈ [Guard.mk key token]) :
    g.key = key → g.token = token := by
  rw [List.mem_singleton.mp hg]
  exact fun _ => rfl

/-- Trying for a lock writes its key under the owner's token only. -/
theorem asks_acquireFrom (config : LockConfig) (key token : String) (waited : Duration) :
    (acquireFrom config key token waited).Asks (OwnsLock key token config.ttl) :=
  asks_acquireFrom_of ⟨fun _ => ⟨rfl, rfl⟩, nofun⟩ (fun _ => ⟨trivial, nofun⟩)
    ⟨trivial, fun _ hg => ownsLock_own hg⟩ (fun _ => ⟨trivial, nofun⟩) waited

/-- A lock that is had is held by its owner's token. -/
theorem yields_acquireFrom (config : LockConfig) (key token : String) (waited : Duration) :
    (acquireFrom config key token waited).Yields fun result =>
      ∀ guard, result = .ok guard → guard = ⟨key, token⟩ := by
  rw [acquireFrom]
  rintro (fault | _ | _)
  · rintro _ ⟨⟩
  · show Routine.Yields _ (if _ then _ else _)
    split
    · rintro _ _ ⟨⟩
    · exact fun _ => yields_acquireFrom config key token _
  · intro _ guard hguard
    cases hguard
    rfl
termination_by config.acquireTimeout.nanos - waited.nanos
decreasing_by exact nextPause_decreases (by assumption)

theorem asks_release : (release ⟨key, token⟩).Asks (OwnsLock key token ttl) := by
  refine ⟨⟨fun _ => rfl, fun g hg => ownsLock_own hg⟩, ?_⟩
  rintro (fault | _ | _)
  · trivial
  · exact ⟨⟨trivial, nofun⟩, fun _ => trivial⟩
  · trivial

/-- A party that works under a lock uses its key as the owner of its token. -/
theorem asks_underLock (hwork : work.Asks (Spares key)) :
    (underLock config key token work).Asks (OwnsLock key token config.ttl) := by
  refine (asks_acquireFrom config key token .zero).bind
    (yields_acquireFrom config key token .zero) ?_
  rintro (error | guard) hguard
  · trivial
  · rw [hguard guard rfl]
    -- The work knows nothing of the guard that is held around it.
    have hheld : (work.holding (Guard.mk key token)).Asks (OwnsLock key token config.ttl) := by
      rw [Routine.asks_holding]
      exact hwork.weaken fun _ _ h => ownsLock_of_spares h ⟨key, token⟩ rfl
    refine hheld.bind Routine.yields_true fun result _ => ?_
    exact asks_release.bind Routine.yields_true fun _ _ => trivial

/-- A token that was granted or released is the one asked with. -/
theorem token_of_ownsLock {ι : Type} {e : Moment ι} {other : String}
    (h : OwnsLock key token ttl e.ask held)
    (he : e.grant? = some ⟨key, other⟩ ∨ e.freed? = some ⟨key, other⟩) : other = token := by
  obtain ⟨hask, _⟩ := h
  rcases he with hgrant | hfreed
  · obtain ⟨life, hwrite⟩ := Moment.ask_of_grant? hgrant
    rw [hwrite] at hask
    exact (hask rfl).1
  · rw [Moment.ask_of_freed? hfreed] at hask
    exact hask rfl

/-- The background grants nothing. -/
theorem grant?_of_abandons {ι : Type} {e : Moment ι} (h : Abandons key e.ask) (other : String) :
    e.grant? ≠ some ⟨key, other⟩ := by
  intro hgrant
  obtain ⟨life, hwrite⟩ := Moment.ask_of_grant? hgrant
  rw [hwrite] at h
  exact h rfl

/-- Giving a lock up asks for a conditional delete and may report its failure. -/
theorem asks_giveUp (g : Guard) : (giveUp g).Asks fun ask _ => Abandons key ask := by
  refine ⟨trivial, ?_⟩
  rintro (fault | _)
  · exact ⟨trivial, fun _ => trivial⟩
  · trivial

end Limiter

open Limiter

variable {ι α : Type} [DecidableEq ι]

/-- Locks are safe.  Only the owner of a token is granted the lock for it, and nobody releases it
for another party.  At every moment the party that holds the lock has its token stored, and no
other party holds it.  A delete for a party whose lock has expired, was taken over or was
released before is not noticed under the lock's key. -/
theorem underLock_safe (config : LockConfig) (key : String) (token : ι → String)
    (htoken : ∀ i j, token i = token j → i = j) (work : ι → Program α)
    (hwork : ∀ i, (work i).Asks (Spares key)) (m₀ : Memory) (acts : List (Act ι))
    (horder : Act.InOrder acts)
    (hclock : ∀ a ∈ acts, ∀ r, a.reading? = some r →
      r.toNat + config.ttl.millis < Word.size) :
    let f := (Fleet.start m₀ fun i => underLock config key (token i) (work i)).run acts
    (∀ e ∈ f.past, ∀ i, (e.grant? = some ⟨key, token i⟩ → e.party = some i) ∧
      (e.freed? = some ⟨key, token i⟩ → e.party = some i ∨ e.party = none)) ∧
    (∀ t, Reached f.past t → ∀ i, Holds ⟨key, token i⟩ config.ttl f.past t →
      f.memory.live? key t = some (token i) ∧
        ∀ j, Holds ⟨key, token j⟩ config.ttl f.past t → j = i) ∧
    ∀ newer e older i, f.past = newer ++ e :: older →
      e.ask = .store (.deleteIfEqual key (token i)) →
      (∃ d ∈ older, d.grant? = some ⟨key, token i⟩) →
      Expired ⟨key, token i⟩ config.ttl older e.reading ∨ TakenOver ⟨key, token i⟩ older ∨
        Released ⟨key, token i⟩ older →
      ∀ t, e.reading ≤ t → e.after.live? key t = e.before.live? key t := by
  intro f
  have hobeys : f.Obeys (fun i => OwnsLock key (token i) config.ttl) (Abandons key) :=
    (Fleet.obeys_start fun i => asks_underLock (hwork i)).run
      (fun _ _ _ _ g _ => asks_giveUp g) acts
  have hpast : LockPast key config.ttl m₀ f.past f.memory :=
    Fleet.lockPast_run hobeys (fun _ _ _ => lockAsk_of_ownsLock) (fun _ => lockAsk_of_abandons)
      horder hclock
  refine ⟨?_, ?_, ?_⟩
  · intro e he i
    cases hparty : e.party with
    | none =>
        exact ⟨fun hgrant => absurd hgrant (grant?_of_abandons (hobeys.nobody e he hparty) _),
          fun _ => .inr rfl⟩
    | some j =>
        obtain ⟨held, hasked⟩ := hobeys.party e he j hparty
        refine ⟨fun hgrant => ?_, fun hfreed => .inl ?_⟩
        · rw [htoken i j (token_of_ownsLock hasked (.inl hgrant))]
        · rw [htoken i j (token_of_ownsLock hasked (.inr hfreed))]
  · intro t ht i hholds
    refine ⟨hpast.live?_of_holds (g := ⟨key, token i⟩) ht hholds, fun j hj => ?_⟩
    exact htoken j i (hpast.holds_unique ht hj hholds)
  · intro newer e older i hsplit hask hgranted hlost t ht
    rw [hsplit] at hpast
    obtain ⟨m, hhere⟩ := hpast.suffix
    refine hhere.live?_of_late_release (g := ⟨key, token i⟩) hask hgranted ?_ ht
    -- In each of the three ways the token does not hold the lock at the delete.
    rcases hlost with hexpired | hover | hreleased
    · exact not_holds_of_expired hexpired
    · exact hhere.tail.not_holds_of_takenOver (g := ⟨key, token i⟩) hhere.ordered.1 hover
    · exact not_holds_of_released hreleased

/-- Two parties and a lock of two seconds: the first is dropped while it works, the second gets
the lock when that of the first has expired, and then the first one's lock is given up. -/
theorem underLock_safe_two_parties :
    let token (first : Bool) := if first then "first" else "second"
    let f := (Fleet.start .empty fun i => underLock .standard "lock" (token i) (pause .zero)).run
      [.go true 0, .go true 0, .go false 1000, .go false 1010, .drop true, .go false 2000,
        .job 0 2500]
    ∀ t, Reached f.past t → Holds ⟨"lock", "second"⟩ (.ofSecs 2) f.past t →
      f.memory.live? "lock" t = some "second" := by
  intro token f t ht hholds
  have httl : LockConfig.standard.ttl.millis = 2000 := by decide
  have hsafe := underLock_safe .standard "lock" token (by decide) (fun _ => pause .zero)
    (fun _ => ⟨⟨trivial, nofun⟩, fun _ => trivial⟩) .empty
    [.go true 0, .go true 0, .go false 1000, .go false 1010, .drop true, .go false 2000,
      .job 0 2500] (by unfold Act.InOrder; decide) (by simp [Act.reading?, httl, Word.size])
  exact (hsafe.2.1 t ht false hholds).1

end FlowControl
