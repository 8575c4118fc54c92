import FlowControl.Proofs.Limiter.DueTokens
import FlowControl.Proofs.Limiter.FailingTakes

/-!
# A refusal tells when to come back

A take that is refused names the interval of its bucket.  Another take that reads the clock that
much later, or still later, gets a token: if the store answers it, the lock is free and it is not
dropped, then it succeeds within ten turns.  Takes that get nothing do not matter, however many of
them there are; only takes that charge the bucket in between do, and of those that are done these
are the ones that have succeeded.

The two takes may be those of any parties, and everybody else may do what they like with other
keys, reset the bucket, fail or be dropped.
-/

namespace FlowControl

open Limiter

/-- Is it a turn of a party? -/
def Act.isTurnOf {ι : Type} [DecidableEq ι] (i : ι) : Act ι → Bool
  | .go j _ => j = i
  | _ => false

/-- Is a take in the lock, or was it, and has nothing failed? -/
def TakeStage.Smooth : TakeStage → Prop
  | .outside | .owing (.failed _) | .finished (.failed _) => False
  | _ => True

namespace Bucket

variable {ι : Type} {b : Bucket} {t turns : Nat} {token : String} {n now r : UInt64} {i j : ι}
  {m m₀ : Memory} {e : Moment ι} {stage stage' : TakeStage} {past newer : List (Moment ι)}

/-! ## Nothing fails -/

theorem smooth_of_advances (h : stage.Smooth) (hadvances : Advances b token n e stage stage')
    (hup : e.before.unavailable = false)
    (hstore : e.ask = b.stateLoad → b.StoreDue t e.before) : stage'.Smooth := by
  cases hadvances with
  | loads hask hup now =>
      obtain ⟨state, hreads, -⟩ := (hstore hask).reads e.reading
      rw [hreads]
      trivial
  | releases hask outcome =>
      cases outcome with
      | failed error => exact h
      | stored now state => trivial
  | loadFails hask hdown | saveFails now state hask hdown => cases hup.symm.trans hdown
  | notes hask stage => exact h
  | pauses | waits | enters | misses => exact h.elim
  | clocks | saves => trivial

/-- A try for a free lock gets it. -/
theorem entered_of_advances (hup : m.unavailable = false)
    (hfree : m.live? b.key.lockKey r = none)
    (hadvances : Advances b token n (Moment.of (some i) r (b.lockTry token) m) .outside stage') :
    stage' = .entered := by
  have hanswer : answerAt Memory.call r (b.lockTry token) m = (.ok true, _) :=
    answerAt_try_of_free hup hfree
  cases hadvances with
  | enters => rfl
  | waits hask hgrant =>
      have hgranted : (Moment.of (some i) r (b.lockTry token) m).grant? = some (b.guardOf token) :=
        congrArg (granted? (b.lockTry token)) (congrArg Prod.fst hanswer)
      cases hgrant.symm.trans hgranted
  | misses hask hdown => cases hup.symm.trans hdown
  | notes hask => cases hask
  | pauses hask => cases hask

/-! ## A take that is served -/

variable [DecidableEq ι] {purpose : ι → Option Use} {program : ι → Program (Except LimitError Unit)}
  {f : Fleet ι (Except LimitError Unit)} {acts : List (Act ι)} {a : Act ι}

/-- Is a take served?  It is not dropped, the store answers it, and the lock is free when it tries
to get it. -/
structure Served (b : Bucket) (token : String) (i : ι) (f : Fleet ι (Except LimitError Unit)) :
    Prop where
  stays : f.task i ≠ none
  up : ∀ e ∈ f.past, e.party = some i → e.before.unavailable = false
  free : ∀ e ∈ f.past, e.party = some i → e.ask = b.lockTry token →
    e.before.live? b.key.lockKey e.reading = none

/-- Had no take charged the bucket at a later reading than this when a party loaded its state? -/
def Calm (b : Bucket) (purpose : ι → Option Use) (t : Nat) (i : ι) (past : List (Moment ι)) :
    Prop :=
  ∀ later e earlier, past = later ++ e :: earlier → e.party = some i → e.ask = b.stateLoad →
    ∀ now, t < now.toNat → ¬ b.Charged purpose earlier now

theorem Served.before (h : b.Served token i (f.step a)) : b.Served token i f := by
  obtain ⟨newer, hpast⟩ := f.past_step a
  have hsub : ∀ e ∈ f.past, e ∈ (f.step a).past := fun e he => by
    rw [hpast]
    exact List.mem_append_right _ he
  refine ⟨fun hnone => ?_, fun e he => h.up e (hsub e he), fun e he => h.free e (hsub e he)⟩
  obtain ⟨_, -, -, hgone⟩ := f.exists_newer_run [a] i
  exact h.stays (hgone hnone).1

omit [DecidableEq ι] in
theorem Calm.before (h : b.Calm purpose t i (newer ++ past)) : b.Calm purpose t i past := by
  rintro later e earlier rfl
  exact h (newer ++ later) e earlier (List.append_assoc ..).symm

/-- How far a take has come after some turns, if it is served and calm: it has yet to try for the
lock, or it is done after ten turns. -/
def Progress (b : Bucket) (t : Nat) (token : String) (n : UInt64) (i : ι) (m₀ : Memory)
    (turns : Nat) (f : Fleet ι (Except LimitError Unit)) : Prop :=
  ∃ stage p, Stands b token n i m₀ f stage ∧ TakeDue t stage ∧ f.task i = some p ∧
    ((turns = 0 ∧ stage = .outside ∧ p = b.take token n) ∨
      (stage.Smooth ∧ p.Within (10 - turns)))

theorem progress_start (hprogram : program i = b.take token n) :
    Progress b t token n i m₀ 0 (.start m₀ program) :=
  ⟨.outside, _, stands_start hprogram, trivial, congrArg some hprogram, .inl ⟨rfl, rfl, rfl⟩⟩

/-- A take that is answered makes progress. -/
theorem Progress.goes {ask : Ask} {held : List Guard}
    {resume : ask.Answer → Program (Except LimitError Unit)} {turns' : Nat}
    (h : Progress b t token n i m₀ turns f) (htask : f.task i = some (.ask ask held resume))
    (hup : f.memory.unavailable = false)
    (hfree : ask = b.lockTry token → f.memory.live? b.key.lockKey r = none)
    (hstore : ask = b.stateLoad → b.StoreDue t f.memory) (hturns : turns' ≤ turns + 1) :
    Progress b t token n i m₀ turns' (f.goOn i (.of (some i) r ask f.memory)
      (some (resume (answerAt Memory.call r ask f.memory).1))) := by
  obtain ⟨stage, p, hstands, hdue, hp, hcase⟩ := h
  cases hp.symm.trans htask
  obtain ⟨stage', hadvances, hgoes⟩ := hstands.goes htask r
  refine ⟨stage', _, hgoes, takeDue_of_advances hdue hadvances hstore, if_pos rfl, .inr ?_⟩
  rcases hcase with ⟨rfl, rfl, hfirst⟩ | ⟨hsmooth, hwithin⟩
  · obtain ⟨resume', htry, hentered⟩ := take_tries b token n
    cases hfirst.trans htry
    have hanswer : answerAt Memory.call r (b.lockTry token) f.memory = (.ok true, _) :=
      answerAt_try_of_free hup (hfree rfl)
    rw [entered_of_advances hup (hfree rfl) hadvances, hanswer, hentered]
    exact ⟨trivial, (within_entered b token n).mono (by omega)⟩
  · refine ⟨smooth_of_advances hsmooth hadvances hup hstore, ?_⟩
    cases hleft : 10 - turns with
    | zero =>
        rw [hleft] at hwithin
        exact hwithin.elim
    | succ left =>
        rw [hleft] at hwithin
        exact (hwithin _).mono (by omega)

/-- What others do does not hold a take up, and at a turn in which it has no part it is done. -/
theorem Progress.apart (h : Progress b t token n i m₀ turns f) (hapart : f.Apart i (f.step a)) :
    Progress b t token n i m₀ (turns + [a].countP (Act.isTurnOf i)) (f.step a) := by
  obtain ⟨stage, p, hstands, hdue, hp, hcase⟩ := h
  refine ⟨stage, p, hstands.apart hapart, hdue, hapart.task.trans hp, ?_⟩
  rw [List.countP_singleton]
  split
  · next hturn =>
    cases a with
    | go j r =>
        obtain rfl : j = i := of_decide_eq_true hturn
        rcases hapart.of_turn with hnone | ⟨result, hdone⟩
        · cases hnone.symm.trans hp
        · cases hp.symm.trans hdone
          rcases hcase with ⟨-, -, hfirst⟩ | ⟨hsmooth, -⟩
          · obtain ⟨resume, htry, -⟩ := take_tries b token n
            cases hfirst.trans htry
          · exact .inr ⟨hsmooth, Routine.within_done _⟩
    | _ => cases hturn
  · exact hcase

/-- An act does not hold a take up that is served. -/
theorem Progress.step (h : Progress b t token n i m₀ turns f)
    (hserved : b.Served token i (f.step a))
    (hstore : ∀ e, (f.step a).past = e :: f.past → e.party = some i → e.ask = b.stateLoad →
      b.StoreDue t f.memory) :
    Progress b t token n i m₀ (turns + [a].countP (Act.isTurnOf i)) (f.step a) := by
  rcases f.step_party_cases a i with ⟨r, ask, held, resume, htask, hstep⟩ | ⟨-, hnone⟩ | hapart
  · have hpast : (f.step a).past = .of (some i) r ask f.memory :: f.past := by
      rw [hstep]
      rfl
    have hmem : Moment.of (some i) r ask f.memory ∈ (f.step a).past := by
      rw [hpast]
      exact List.mem_cons_self
    have hone := List.countP_le_length (p := Act.isTurnOf i) (l := [a])
    rw [hstep]
    exact h.goes htask (hserved.up _ hmem rfl) (hserved.free _ hmem rfl) (hstore _ hpast rfl)
      (Nat.add_le_add_left hone turns)
  · exact absurd hnone hserved.stays
  · exact h.apart hapart

/-- In a run a take that is served makes progress with each of its turns, as long as nobody
charges the bucket. -/
theorem progress_run (hcapacity : 0 < b.config.capacity.toNat)
    (hplays : ∀ i, b.Plays (purpose i) (program i)) (hfresh : m₀.find? b.key.stateKey = none)
    (htake : purpose i = some (.take token n)) (acts : List (Act ι))
    (hserved : b.Served token i ((Fleet.start m₀ program).run acts))
    (hcalm : b.Calm purpose t i ((Fleet.start m₀ program).run acts).past) :
    Progress b t token n i m₀ (acts.countP (Act.isTurnOf i))
      ((Fleet.start m₀ program).run acts) := by
  induction acts using List.reverseRecOn with
  | nil => exact progress_start ((hplays i).take htake)
  | append_singleton acts a ih =>
      rw [Fleet.run_concat] at hserved hcalm ⊢
      rw [List.countP_append]
      have hdue := charged_or_allDue_run hcapacity hplays hfresh t acts
      generalize (Fleet.start m₀ program).run acts = f at *
      have hbefore : b.Calm purpose t i f.past := by
        obtain ⟨newer, hpast⟩ := f.past_step a
        rw [hpast] at hcalm
        exact hcalm.before
      refine (ih hserved.before hbefore).step hserved fun e hpast hparty hload => ?_
      rcases hdue with ⟨now, hlate, hcharged⟩ | hdue
      · exact absurd hcharged (hcalm [] e f.past hpast hparty hload now hlate)
      · exact hdue.store

/-- After ten turns a take is done, and has decided by a state that it read. -/
theorem Progress.done (h : Progress b t token n i m₀ turns f) (hturns : 10 ≤ turns) :
    ∃ now state, f.result? i = some (b.verdict (b.refilled state now) n) ∧
      b.HasRead i f.past now state ∧ ∀ s ∈ state, s.Due t := by
  obtain ⟨stage, p, hstands, hdue, hp, ⟨rfl, -⟩ | ⟨hsmooth, hwithin⟩⟩ := h
  · cases hturns
  · rw [Nat.sub_eq_zero_of_le hturns] at hwithin
    obtain ⟨q, hq, hproceeds⟩ := hstands.task
    cases hp.symm.trans hq
    cases p with
    | ask ask held resume => exact hwithin.elim
    | done result =>
        cases stage with
        | outside => exact hsmooth.elim
        | finished outcome =>
            cases outcome with
            | failed error => exact hsmooth.elim
            | stored now state =>
                obtain rfl : result = b.verdict (b.refilled state now) n := hproceeds
                refine ⟨now, state, ?_, hstands.account.1, hdue⟩
                unfold Fleet.result?
                rw [hp]
        | _ => exact hproceeds.elim

/-- A take that is done has succeeded if and only if it has charged the bucket, with what it asked
for.  So a take that is refused or fails has not. -/
theorem success_iff_chargedBy (hprogram : program i = b.take token n) (acts : List (Act ι))
    {result : Except LimitError Unit}
    (hresult : ((Fleet.start m₀ program).run acts).result? i = some result) :
    result = .ok () ↔ ∃ now, b.ChargedBy i n ((Fleet.start m₀ program).run acts).past now := by
  rcases stands_run_knows hprogram acts with hnone | ⟨stage, hstands, hknows⟩
  · cases hnone.symm.trans (Fleet.task_of_result? hresult)
  generalize (Fleet.start m₀ program).run acts = f at *
  constructor
  · rintro rfl
    obtain ⟨now, state, hread, henough, e, -, -, -, hstored⟩ := (hstands.done hresult).1
    obtain ⟨d, hd, hhere⟩ := List.mem_filterMap.mp (hstored ▸ List.mem_cons_self)
    obtain ⟨hparty, hhere⟩ := Option.ite_none_right_eq_some.mp hhere
    exact ⟨now, state, hread, henough, d, hd, hparty, _, hhere, rfl⟩
  · rintro ⟨now, state, ⟨⟨x, hx, hxparty, hxask, rfl⟩, y, hy, hyparty, hyask, -, hreads⟩, henough,
      e, he, hparty, entry, hentry, -⟩
    have hstored : entry ∈ storesOf i b.key.stateKey f.past :=
      List.mem_filterMap.mpr ⟨e, he, (if_pos hparty).trans hentry⟩
    obtain ⟨p, hp, hproceeds⟩ := hstands.task
    cases hp.symm.trans (Fleet.task_of_result? hresult)
    cases stage with
    | outside => exact absurd (hstands.account ▸ hstored) List.not_mem_nil
    | finished outcome =>
        cases outcome with
        | failed error => exact absurd (hstands.account.2 ▸ hstored) List.not_mem_nil
        | stored now' state' =>
            obtain rfl : result = b.verdict (b.refilled state' now') n := hproceeds
            obtain rfl : x.reading = now' := (hknows x hx hxparty).1 hxask
            have hsame := ((hknows y hy hyparty).2 hyask).symm.trans hreads
            obtain rfl : state' = state := Except.ok.inj hsame
            rw [verdict, if_pos henough]
    | _ => exact hproceeds.elim

/-- A refusal tells when to come back.  A take of one token that is refused at a reading of its
clock names the interval of the bucket.  A take of one token whose clock is that much later
succeeds: within ten turns it is done, if it is served, and if by the time that it loads the state
no take has charged the bucket at a reading later than that of the refusal.  How many other takes
were refused, failed or asked for nothing does not matter: of the takes that are done, those have
charged the bucket that have succeeded, and no others. -/
theorem refusal_tells_when (b : Bucket) (hvalid : b.config.check = .ok ()) (m₀ : Memory)
    (hfresh : m₀.find? b.key.stateKey = none) (purpose : ι → Option Use)
    (program : ι → Program (Except LimitError Unit))
    (hplays : ∀ k, b.Plays (purpose k) (program k)) (acts : List (Act ι)) (i j : ι)
    (token token' : String) (hi : purpose i = some (.take token 1))
    (hj : purpose j = some (.take token' 1)) :
    let f := (Fleet.start m₀ program).run acts
    (∀ t retryAfter, f.result? i = some (.error (.exceeded retryAfter)) → HasClock i f.past t →
      retryAfter = b.config.interval ∧
      (b.Served token' j f → b.Calm purpose t.toNat j f.past →
        (∀ t', HasClock j f.past t' → t.toNat + retryAfter.millis ≤ t'.toNat) →
        10 ≤ acts.countP (Act.isTurnOf j) → f.result? j = some (.ok ()))) ∧
      ∀ k token n result, purpose k = some (.take token n) → f.result? k = some result →
        (result = .ok () ↔ ∃ now, b.ChargedBy k n f.past now) := by
  intro f
  refine ⟨fun t retryAfter hrefused _ => ?_, fun k token n result htake hresult =>
    success_iff_chargedBy ((hplays k).take htake) acts hresult⟩
  have hnamed : retryAfter = b.config.interval := by
    rcases (stands_start ((hplays i).take hi)).run acts with hnone | ⟨stage, hstands⟩
    · cases hnone.symm.trans (Fleet.task_of_result? hrefused)
    · exact (hstands.done hrefused).1.1
  refine ⟨hnamed, fun hserved hcalm hlater hturns => ?_⟩
  have hprogress := progress_run (LimiterConfig.capacity_pos hvalid) hplays hfresh hj acts hserved
    hcalm
  obtain ⟨now, state, hresult, hread, hdue⟩ := hprogress.done hturns
  have hnow := hlater now hread.1
  rw [hnamed] at hnow
  rw [hresult, verdict_of_due hvalid hdue hnow]

deriving instance DecidableEq for Ask

/-- A standard bucket that is emptied and then hammered, by a take that is refused and by one of
more than the bucket can hold: three seconds after the refusal there is a token. -/
theorem refusal_tells_when_hammered :
    let b : Bucket := ⟨⟨"svc", "caller", "GET", "/movies"⟩, .standard⟩
    let uses : Fin 4 → Use
      | 0 => .take "first" 2
      | 1 => .take "second" 1
      | 2 => .take "third" 5
      | 3 => .take "fourth" 1
    let turns (k : Fin 4) (reading : UInt64) := List.replicate 10 (Act.go k reading)
    let acts := turns 0 0 ++ turns 1 1000 ++ turns 2 2500 ++ turns 3 4000
    let f := (Fleet.start .empty fun k => b.use (uses k)).run acts
    f.result? 1 = some (.error (.exceeded (.ofSecs 3))) ∧ f.result? 3 = some (.ok ()) := by
  intro b uses turns acts f
  have hrefused : f.result? 1 = some (.error (.exceeded (.ofSecs 3))) := by decide +kernel
  have hclock : HasClock 1 f.past 1000 := by
    show ∃ e ∈ f.past, _
    decide +kernel
  have hstays : (f.task 3).isSome = true := by decide +kernel
  have hup : ∀ e ∈ f.past, e.party = some 3 → e.before.unavailable = false := by decide +kernel
  have hfree : ∀ e ∈ f.past, e.party = some 3 → e.ask = b.lockTry "fourth" →
      e.before.live? b.key.lockKey e.reading = none := by decide +kernel
  have hlater : ∀ e ∈ f.past, e.party = some 3 → 4000 ≤ e.reading.toNat := by decide +kernel
  have hearly : ∀ e ∈ f.past, e.party = some 0 ∨ e.party = some 1 → e.reading.toNat ≤ 1000 := by
    decide +kernel
  have honce : f.past.Pairwise fun e d =>
      ¬ (e.party = some 3 ∧ e.ask = b.stateLoad ∧ d.party = some 3 ∧ d.ask = b.stateLoad) := by
    decide +kernel
  have hserved : b.Served "fourth" 3 f := by
    refine ⟨fun hnone => ?_, hup, hfree⟩
    rw [hnone] at hstays
    cases hstays
  have hcalm : b.Calm (fun k => some (uses k)) 1000 3 f.past := by
    rintro later d earlier hpast hparty hload now hlate ⟨k, token, n, htake, -, state,
      ⟨⟨x, hx, hxparty, -, rfl⟩, y, hy, hyparty, hyload, -⟩, henough, -⟩
    have hsub : earlier ⊆ f.past := fun z hz => by
      rw [hpast]
      exact List.mem_append_right _ (List.mem_cons_of_mem _ hz)
    match k with
    | 0 => exact absurd hlate (Nat.not_lt.mpr (hearly x (hsub hx) (.inl hxparty)))
    | 1 => exact absurd hlate (Nat.not_lt.mpr (hearly x (hsub hx) (.inr hxparty)))
    | 2 =>
        cases htake
        have hroom : (b.refilled state x.reading).tokens.toNat ≤ 2 :=
          (TokenState.fits_refill ..).tokens_le
        exact absurd (Nat.le_trans (UInt64.le_iff_toNat_le.mp henough) hroom) (by decide)
    | 3 =>
        rw [hpast] at honce
        have hothers := (List.pairwise_cons.mp (List.pairwise_append.mp honce).2.1).1 y hy
        exact absurd ⟨hparty, hload, hyparty, hyload⟩ hothers
  obtain ⟨htells, -⟩ := refusal_tells_when b rfl .empty rfl (fun k => some (uses k)) _
    (fun _ => rfl) acts 1 3 "second" "fourth" rfl rfl
  obtain ⟨-, hsucceeds⟩ := htells 1000 _ hrefused hclock
  refine ⟨hrefused, hsucceeds hserved hcalm ?_ (by decide)⟩
  rintro t' ⟨e, he, hparty, -, rfl⟩
  exact hlater e he hparty

end Bucket

end FlowControl
