import FlowControl.Proofs.Limiter.TakeAccounts

/-!
# A take charges, refuses or leaves the state alone

The store may fail at any question of a take, and hold any text under the key of its state.
Whichever questions fail, the result of the take tells what it has stored: the refilled state less
its tokens if it succeeds, the refilled state if it is refused, and nothing if it fails.  Its token
does not stay in the lock, unless the release itself failed, and the result is settled before the
release is answered.

Others may use the same store meanwhile, and take over a lock that has expired.
-/

namespace FlowControl

open Limiter

namespace Bucket

variable {ι : Type} [DecidableEq ι] {b : Bucket} {token : String} {n : UInt64} {i : ι} {m₀ : Memory}
  {f : Fleet ι (Except LimitError Unit)} {outcome : TakeOutcome} {past : List (Moment ι)}
  {result : Except LimitError Unit} {held : List Guard}

/-- Does a result of a take tell what the take has stored?  A success has charged the state that
it loaded and refilled, a refusal has stored it refilled, with too few tokens, and any other error
is a failure of the lock or of the store that has stored nothing. -/
def Tells (b : Bucket) (n : UInt64) (i : ι) (past : List (Moment ι)) :
    Except LimitError Unit → Prop
  | .ok () => ∃ now state, b.HasRead i past now state ∧ n ≤ (b.refilled state now).tokens ∧
      b.HasStored i past ((b.refilled state now).spend n)
  | .error (.exceeded retryAfter) => retryAfter = b.config.interval ∧
      ∃ now state, b.HasRead i past now state ∧ (b.refilled state now).tokens < n ∧
        b.HasStored i past (b.refilled state now)
  | .error error => error.isBackendFailure = true ∧ storesOf i b.key.stateKey past = []

theorem tells_resultOf (h : b.CameTo n i past outcome) :
    b.Tells n i past (b.resultOf n outcome) := by
  cases outcome with
  | failed error =>
      cases error with
      | exceeded retryAfter => cases h.1
      | _ => exact h
  | stored now state =>
      obtain ⟨hread, hstored⟩ := h
      show b.Tells n i past (b.verdict (b.refilled state now) n)
      unfold leftOf at hstored
      unfold verdict
      by_cases henough : n ≤ (b.refilled state now).tokens
      · rw [if_pos henough] at hstored ⊢
        exact ⟨now, state, hread, henough, hstored⟩
      · rw [if_neg henough] at hstored ⊢
        exact ⟨rfl, now, state, hread, UInt64.not_le.mp henough, hstored⟩

/-- A take that is done has come to its result, and is outside the lock. -/
theorem Stands.done {stage : TakeStage} (h : Stands b token n i m₀ f stage)
    (hresult : f.result? i = some result) :
    b.Tells n i f.past result ∧ ((b.guardOf token).IsGone m₀ →
      (∀ e ∈ f.past, e.party ≠ some i → Leaves (b.guardOf token) e.ask) →
      (b.guardOf token).IsGone f.memory ∨ b.ReleaseFailed token i f.past) := by
  obtain ⟨p, hp, hproceeds⟩ := h.task
  cases hp.symm.trans (Fleet.task_of_result? hresult)
  cases stage with
  | outside =>
      obtain ⟨error, rfl, hfailure⟩ := hproceeds
      have htells : b.Tells n i f.past (b.resultOf n (.failed error)) :=
        tells_resultOf ⟨hfailure, h.account⟩
      exact ⟨htells, fun hgone hothers => .inl (h.lock hgone hothers)⟩
  | finished outcome =>
      obtain rfl : result = b.resultOf n outcome := hproceeds
      exact ⟨tells_resultOf h.account, h.lock⟩
  | _ => exact hproceeds.elim

/-- A take that gives the lock back has come to its result, whatever the release is answered. -/
theorem Stands.releasing {stage : TakeStage} {key value : String}
    {resume : Except StoreFault Bool → Program (Except LimitError Unit)}
    (h : Stands b token n i m₀ f stage)
    (htask : f.task i = some (.ask (.store (.deleteIfEqual key value)) held resume)) :
    ∃ result, b.Tells n i f.past result ∧ ∀ answer, (resume answer).Yields (· = result) := by
  obtain ⟨p, hp, hproceeds⟩ := h.task
  cases hp.symm.trans htask
  cases stage with
  | owing outcome =>
      exact ⟨b.resultOf n outcome, tells_resultOf h.account,
        fun answer => (hproceeds.2 answer).yields⟩
  | _ => exact hproceeds.elim

/-- A failing take is atomic.  Whichever of its questions the store fails to answer, its result
tells what it has stored.  If nobody else writes there, the key of the state holds what it stored,
or if it stored nothing, the entry from before, until that expires.  Afterwards its token is not in
the lock, unless a release failed.  How its release is answered changes nothing about its result. -/
theorem failing_take_is_atomic (b : Bucket) (token : String) (n : UInt64) (m₀ : Memory)
    (program : ι → Program (Except LimitError Unit)) (i : ι)
    (hprogram : program i = b.take token n) (acts : List (Act ι)) :
    let f := (Fleet.start m₀ program).run acts
    let stored := storesOf i b.key.stateKey f.past
    (∀ result, f.result? i = some result →
      b.Tells n i f.past result ∧
      ((∀ e ∈ f.past, e.Writes b.key.stateKey → e.party = some i) →
        Remains b.key.stateKey (stored.head?.or (m₀.find? b.key.stateKey)) f.past f.memory) ∧
      ((b.guardOf token).IsGone m₀ →
        (∀ e ∈ f.past, e.party ≠ some i → Leaves (b.guardOf token) e.ask) →
        (b.guardOf token).IsGone f.memory ∨ b.ReleaseFailed token i f.past)) ∧
    ∀ key value held resume,
      f.task i = some (.ask (.store (.deleteIfEqual key value)) held resume) →
      ∃ result, b.Tells n i f.past result ∧ ∀ answer, (resume answer).Yields (· = result) := by
  intro f stored
  have hstands : f.task i = none ∨ ∃ stage, Stands b token n i m₀ f stage :=
    (stands_start hprogram).run acts
  refine ⟨fun result hresult => ?_, fun key value held resume htask => ?_⟩
  · rcases hstands with hnone | ⟨stage, hstands⟩
    · cases hnone.symm.trans (Fleet.task_of_result? hresult)
    · obtain ⟨htells, hlock⟩ := hstands.done hresult
      exact ⟨htells, remains_run hprogram acts, hlock⟩
  · rcases hstands with hnone | ⟨stage, hstands⟩
    · cases hnone.symm.trans htask
    · exact hstands.releasing htask

/-- A save that fails among other takes: the state is what it was, and the lock is free. -/
theorem failing_take_is_atomic_save_fails :
    let b : Bucket := ⟨⟨"svc", "caller", "GET", "/movies"⟩, .standard⟩
    let token (first : Bool) := if first then "first" else "second"
    let entry : MemoryEntry := ⟨(TokenState.full 2 500).encode, 90000⟩
    let m₀ := Memory.empty.put b.key.stateKey entry
    let f := (Fleet.start m₀ fun i => b.take (token i) 1).run
      [.go true 1000, .go true 1000, .go true 1000, .go true 1001, .outage true, .go true 1002,
        .outage false, .go false 1003, .go true 1004, .go true 1004]
    f.result? true = some (.error (.backend Memory.outage)) ∧
      storesOf true b.key.stateKey f.past = [] ∧
      Remains b.key.stateKey (some entry) f.past f.memory ∧
      ((b.guardOf "first").IsGone f.memory ∨ b.ReleaseFailed "first" true f.past) := by
  intro b token entry m₀ f
  have hresult : f.result? true = some (.error (.backend Memory.outage)) := by decide +kernel
  have halone : ∀ e ∈ f.past, e.Writes b.key.stateKey → e.party = some true := by decide +kernel
  have hempty : m₀.find? b.key.lockKey = none := by decide
  have hgone : (b.guardOf "first").IsGone m₀ := fun x hx => nomatch hempty.symm.trans hx
  have hothers : ∀ e ∈ f.past, e.party ≠ some true → Leaves (b.guardOf "first") e.ask := by
    intro e he
    refine leaves_of_others (fun second hsecond => ?_) _ he
    obtain rfl : second = false := (Bool.not_eq_true second).mp hsecond
    exact ⟨b, "second", 1, rfl, by decide, b.key.lockKey_ne_stateKey.symm⟩
  obtain ⟨⟨_, hstored⟩, hremains, hlock⟩ :=
    (failing_take_is_atomic b "first" 1 m₀ (fun i => b.take (token i) 1) true rfl _).1 _ hresult
  refine ⟨hresult, hstored, ?_, hlock hgone hothers⟩
  have hkept := hremains halone
  rw [hstored] at hkept
  exact hkept

end Bucket

end FlowControl
