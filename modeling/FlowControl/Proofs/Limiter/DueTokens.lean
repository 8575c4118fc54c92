import FlowControl.Proofs.Limiter.Config
import FlowControl.Proofs.Limiter.TakeAccounts

/-!
# When the next token is due

A state has a token, or it was last refilled by some reading; then its next token is due one
interval after that reading.  Whatever uses of a bucket store keeps this, but for one thing: a
take that gets tokens at a later reading.  Refusals and takes of nothing store what they have
refilled, and a refill leaves an empty bucket's last refill where it is.

Takes may overlap, fail and be dropped, and the clock may go back.
-/

namespace FlowControl

open Limiter

namespace TokenState

variable {s : TokenState} {t : Nat} {now interval capacity n : UInt64}

/-- Is there a token, or is one due an interval after this reading at the latest? -/
def Due (t : Nat) (s : TokenState) : Prop := 0 < s.tokens.toNat ∨ s.lastRefillAt.toNat ≤ t

theorem due_full (hcapacity : 0 < capacity.toNat) : (full capacity now).Due t := .inl hcapacity

theorem Fits.due (h : s.Fits capacity now) (hnow : now.toNat ≤ t) : s.Due t :=
  .inr (Nat.le_trans h.lastRefillAt_le hnow)

/-- A refill does not put a token off. -/
theorem Due.refill (h : s.Due t) (hcapacity : 0 < capacity.toNat) :
    (s.refill now interval capacity).Due t := by
  by_cases hfills : capacity.toNat ≤ s.tokens.toNat + (s.earned now interval).toNat
  · rw [refill_of_fills hfills]
    exact due_full hcapacity
  · have hshort := Nat.lt_of_not_le hfills
    by_cases hsome : 0 < s.tokens.toNat + (s.earned now interval).toNat
    · left
      rw [toNat_tokens_refill hshort]
      exact hsome
    · -- No interval is over, so the last refill stays where it is.
      right
      have hlast : s.lastRefillAt.toNat ≤ t := h.resolve_left (by omega)
      have hnone : (now.toNat - s.lastRefillAt.toNat) / (step interval).toNat = 0 := by
        rw [← toNat_earned_step]
        omega
      have hwithin := (Nat.div_eq_zero_iff_lt (step_pos interval)).mp hnone
      rw [toNat_lastRefillAt_refill hshort, ← toNat_step, Nat.mod_eq_of_lt hwithin]
      omega

/-- A refill when the token is due finds it. -/
theorem Due.tokens_refill (h : s.Due t) (hcapacity : 0 < capacity.toNat)
    (hnow : t + (step interval).toNat ≤ now.toNat) :
    0 < (s.refill now interval capacity).tokens.toNat := by
  by_cases hfills : capacity.toNat ≤ s.tokens.toNat + (s.earned now interval).toNat
  · rw [refill_of_fills hfills]
    exact hcapacity
  · rw [toNat_tokens_refill (Nat.lt_of_not_le hfills)]
    rcases h with htokens | hlast
    · omega
    · have hearned : 0 < (s.earned now interval).toNat := by
        rw [toNat_earned_step]
        apply Nat.div_pos _ (step_pos interval)
        omega
      omega

end TokenState

namespace Bucket

variable {ι : Type} {b : Bucket} {t : Nat} {token text : String} {n now r : UInt64}
  {state : Option TokenState} {m : Memory} {e : Moment ι} {ask : Ask} {stage stage' : TakeStage}

/-- A bucket without a state is full, so a token is due by what any bucket starts from. -/
theorem due_getD (hcapacity : 0 < b.config.capacity.toNat) (h : ∀ s ∈ state, s.Due t) :
    (state.getD (.full b.config.capacity now)).Due t := by
  cases state with
  | none => exact TokenState.due_full hcapacity
  | some s => exact h s rfl

theorem due_refilled (hcapacity : 0 < b.config.capacity.toNat) (h : ∀ s ∈ state, s.Due t) :
    (b.refilled state now).Due t :=
  (due_getD hcapacity h).refill hcapacity

/-- When a token is due a take of one gets it. -/
theorem verdict_of_due (hvalid : b.config.check = .ok ()) (h : ∀ s ∈ state, s.Due t)
    (hnow : t + b.config.interval.millis ≤ now.toNat) :
    b.verdict (b.refilled state now) 1 = .ok () := by
  have hcapacity := LimiterConfig.capacity_pos hvalid
  have hinterval := LimiterConfig.intervalMillis_le (c := b.config)
  have htokens : 0 < (b.refilled state now).tokens.toNat := by
    apply (due_getD hcapacity h).tokens_refill hcapacity
    rw [LimiterConfig.step_intervalMillis hvalid]
    omega
  have henough : 1 ≤ (b.refilled state now).tokens := UInt64.le_iff_toNat_le.mpr htokens
  rw [verdict, if_pos henough]

/-- A take keeps a token due, unless it gets tokens at a later reading. -/
theorem due_leftOf (hcapacity : 0 < b.config.capacity.toNat) (h : ∀ s ∈ state, s.Due t) :
    (leftOf (b.refilled state now) n).Due t ∨
      n ≠ 0 ∧ n ≤ (b.refilled state now).tokens ∧ t < now.toNat := by
  have hrefilled : (b.refilled state now).Due t := due_refilled hcapacity h
  by_cases henough : n ≤ (b.refilled state now).tokens
  · by_cases hnothing : n = 0
    · left
      rwa [leftOf, if_pos henough, hnothing, TokenState.spend, UInt64.sub_zero]
    · by_cases hlate : t < now.toNat
      · exact .inr ⟨hnothing, henough, hlate⟩
      · exact .inl ((fits_leftOf b state now n).due (Nat.not_lt.mp hlate))
  · left
    rwa [leftOf, if_neg henough]

/-! ## What may be stored -/

/-- Questions that store under a key. -/
def StoresUnder (key : String) : Ask → Prop
  | .store (.set k _ _) | .store (.setIfAbsent k _ _) => k = key
  | _ => False

/-- Does a party play its part?  It makes its use of the bucket, or if it has none, it stores
nothing under the key of the bucket's state. -/
def Plays (b : Bucket) : Option Use → Program (Except LimitError Unit) → Prop
  | some u, p => p = b.use u
  | none, p => p.Asks fun ask _ => ¬ StoresUnder b.key.stateKey ask

/-- Questions that store nothing under the key of a bucket's state but a full state. -/
def FillsOnly (b : Bucket) (ask : Ask) : Prop :=
  ¬ StoresUnder b.key.stateKey ask ∨ ∃ now, ask = b.stateSave (.full b.config.capacity now)

/-- Who makes no take stores nothing but a full state. -/
theorem Plays.asks {use : Option Use} {p : Program (Except LimitError Unit)} (h : b.Plays use p)
    (htakes : ∀ token n, use ≠ some (.take token n)) : p.Asks fun ask _ => b.FillsOnly ask := by
  cases use with
  | none => exact h.weaken fun _ _ hask => .inl hask
  | some u =>
      cases u with
      | take token n => exact absurd rfl (htakes token n)
      | reset =>
          rw [h]
          refine ⟨.inl id, fun now => ⟨.inr ⟨now, rfl⟩, ?_⟩⟩
          rintro (fault | _)
          · trivial
          · refine ⟨.inl id, ?_⟩
            rintro (fault | _)
            · trivial
            · exact ⟨.inl id, fun _ => trivial⟩

theorem fillsOnly_giveUp (b : Bucket) (g : Guard) :
    (giveUp g).Asks fun ask _ => b.FillsOnly ask := by
  refine ⟨.inl id, ?_⟩
  rintro (fault | _)
  · exact ⟨.inl id, fun _ => trivial⟩
  · trivial

/-- Is a token due by every state that is stored? -/
def StoreDue (b : Bucket) (t : Nat) (m : Memory) : Prop :=
  ∀ x, m.find? b.key.stateKey = some x → ∃ s : TokenState, x.value = s.encode ∧ s.Due t

/-- What is stored can be read, and a token is due by it. -/
theorem StoreDue.reads (h : b.StoreDue t m) (r : UInt64) :
    ∃ state, b.reads (m.live? b.key.stateKey r) = .ok state ∧ ∀ s ∈ state, s.Due t := by
  cases hlive : m.live? b.key.stateKey r with
  | none => exact ⟨none, rfl, nofun⟩
  | some text =>
      obtain ⟨x, hx, -, rfl⟩ := Memory.live?_eq_some_iff.mp hlive
      obtain ⟨s, hvalue, hdue⟩ := h x hx
      refine ⟨some s, ?_, ?_⟩
      · simp only [Bucket.reads, hvalue, TokenState.parse_encode]
      · rintro _ ⟨⟩
        exact hdue

/-- A moment keeps a token due if every state does that it stores. -/
theorem StoreDue.after (h : b.StoreDue t e.before) (he : e.Answered)
    (hask : StoresUnder b.key.stateKey e.ask → e.before.unavailable = false →
      ∃ s : TokenState, e.ask = b.stateSave s ∧ s.Due t) :
    b.StoreDue t e.after := by
  intro x hx
  rcases Moment.find?_after he hx with hbefore | ⟨hup, ttl, hset | htry⟩
  · exact h x hbefore
  · obtain ⟨s, hsave, hdue⟩ := hask (by rw [hset]; rfl) hup
    obtain ⟨-, hvalue, -⟩ := StoreCall.set.inj (Ask.store.inj (hset.symm.trans hsave))
    exact ⟨s, hvalue, hdue⟩
  · obtain ⟨s, hsave, -⟩ := hask (by rw [htry]; rfl) hup
    cases htry.symm.trans hsave

theorem StoreDue.after_of_fillsOnly (h : b.StoreDue t e.before) (he : e.Answered)
    (hcapacity : 0 < b.config.capacity.toNat) (hask : b.FillsOnly e.ask) :
    b.StoreDue t e.after := by
  refine h.after he fun hstores _ => ?_
  obtain ⟨now, hfull⟩ := hask.resolve_left (not_not_intro hstores)
  exact ⟨_, hfull, TokenState.due_full hcapacity⟩

theorem StoreDue.congr {m' : Memory} (h : b.StoreDue t m) (hentries : m'.entries = m.entries) :
    b.StoreDue t m' := by
  intro x hx
  refine h x ?_
  unfold Memory.find? at hx ⊢
  rwa [← hentries]

/-! ## Takes -/

/-- Is a token due by what a take has read? -/
def TakeDue (t : Nat) : TakeStage → Prop
  | .loaded _ state | .owing (.stored _ state) | .finished (.stored _ state) =>
    ∀ s ∈ state, s.Due t
  | _ => True

/-- A take goes on to read what is stored. -/
theorem takeDue_of_advances (h : TakeDue t stage) (hadvances : Advances b token n e stage stage')
    (hstore : e.ask = b.stateLoad → b.StoreDue t e.before) : TakeDue t stage' := by
  cases hadvances with
  | notes hask stage => exact h
  | loads hask hup now =>
      obtain ⟨state, hreads, hdue⟩ := (hstore hask).reads e.reading
      rw [hreads]
      exact hdue
  | saves now state hask hup => exact h
  | releases hask outcome =>
      cases outcome with
      | failed error => trivial
      | stored now state => exact h
  | pauses | waits | enters | misses | clocks | loadFails | saveFails => trivial

/-- A take stores under the key of its state when it has read one, and only then. -/
theorem Advances.of_stores (hadvances : Advances b token n e stage stage')
    (hstores : StoresUnder b.key.stateKey e.ask) :
    ∃ now state, stage = .loaded now state ∧
      e.ask = b.stateSave (leftOf (b.refilled state now) n) := by
  have hkeys := b.key.lockKey_ne_stateKey
  cases hadvances with
  | saves now state hask hup => exact ⟨now, state, rfl, hask⟩
  | saveFails now state hask hdown => exact ⟨now, state, rfl, hask⟩
  | waits hask | enters hask | misses hask =>
      rw [hask] at hstores
      exact absurd hstores hkeys
  | notes hask | pauses hask | clocks hask | loads hask | loadFails hask | releases hask =>
      rw [hask] at hstores
      exact hstores.elim

variable [DecidableEq ι] {purpose : ι → Option Use} {program : ι → Program (Except LimitError Unit)}
  {past past' : List (Moment ι)} {m₀ : Memory} {f : Fleet ι (Except LimitError Unit)} {a : Act ι}
  {acts : List (Act ι)} {i : ι}

/-- Has a take of a party charged the bucket, at this reading of its clock?  It has found enough
tokens, and has stored what it leaves. -/
def ChargedBy (b : Bucket) (i : ι) (n : UInt64) (past : List (Moment ι)) (now : UInt64) : Prop :=
  ∃ state, b.HasRead i past now state ∧ n ≤ (b.refilled state now).tokens ∧
    ∃ e ∈ past, e.party = some i ∧
      ∃ x ∈ e.stored? b.key.stateKey, x.value = ((b.refilled state now).spend n).encode

/-- Has a take of any tokens charged the bucket, at this reading of its clock? -/
def Charged (b : Bucket) (purpose : ι → Option Use) (past : List (Moment ι)) (now : UInt64) :
    Prop :=
  ∃ i token n, purpose i = some (.take token n) ∧ n ≠ 0 ∧ b.ChargedBy i n past now

omit [DecidableEq ι] in
theorem HasRead.mono (h : b.HasRead i past now state) (hsub : past ⊆ past') :
    b.HasRead i past' now state :=
  ⟨h.1.imp fun _ hd => ⟨hsub hd.1, hd.2⟩, h.2.imp fun _ hd => ⟨hsub hd.1, hd.2⟩⟩

omit [DecidableEq ι] in
theorem ChargedBy.mono (h : b.ChargedBy i n past now) (hsub : past ⊆ past') :
    b.ChargedBy i n past' now := by
  obtain ⟨state, hread, henough, e, he, hcharge⟩ := h
  exact ⟨state, hread.mono hsub, henough, e, hsub he, hcharge⟩

omit [DecidableEq ι] in
theorem Charged.mono (h : b.Charged purpose past now) (hsub : past ⊆ past') :
    b.Charged purpose past' now := by
  obtain ⟨i, token, n, htake, hn, hcharged⟩ := h
  exact ⟨i, token, n, htake, hn, hcharged.mono hsub⟩

/-- Is a token due by what is stored, and by what every take has read? -/
structure AllDue (b : Bucket) (t : Nat) (m₀ : Memory) (purpose : ι → Option Use)
    (f : Fleet ι (Except LimitError Unit)) : Prop where
  store : b.StoreDue t f.memory
  takes : ∀ i token n, purpose i = some (.take token n) → f.task i = none ∨
    ∃ stage, Stands b token n i m₀ f stage ∧ TakeDue t stage

omit [DecidableEq ι] in
theorem Plays.take (h : b.Plays (purpose i) (program i))
    (htake : purpose i = some (.take token n)) : program i = b.take token n := by
  rw [htake] at h
  exact h

theorem allDue_start (hplays : ∀ i, b.Plays (purpose i) (program i))
    (hfresh : m₀.find? b.key.stateKey = none) :
    AllDue b t m₀ purpose (.start m₀ program) where
  store _ hx := nomatch hfresh.symm.trans hx
  takes i _ _ htake := .inr ⟨.outside, stands_start ((hplays i).take htake), trivial⟩

/-- Questions of the parties: takes are not bound here. -/
def MayAsk (b : Bucket) (purpose : ι → Option Use) (i : ι) (ask : Ask) (_held : List Guard) :
    Prop :=
  (∃ token n, purpose i = some (.take token n)) ∨ b.FillsOnly ask

theorem obeys_run (hplays : ∀ i, b.Plays (purpose i) (program i)) (acts : List (Act ι)) :
    ((Fleet.start m₀ program).run acts).Obeys (b.MayAsk purpose) b.FillsOnly := by
  refine (Fleet.obeys_start fun i => ?_).run (fun _ _ _ _ g _ => b.fillsOnly_giveUp g) acts
  by_cases htake : ∃ token n, purpose i = some (.take token n)
  · exact Routine.asks_of_forall fun _ _ => .inl htake
  · refine ((hplays i).asks fun token n h => htake ⟨token, n, h⟩).weaken fun _ _ hask => .inr hask

/-- A question of a take that is answered leaves a token due, or it charges the bucket. -/
theorem Stands.answered {ask : Ask} {held : List Guard}
    {resume : ask.Answer → Program (Except LimitError Unit)} (h : Stands b token n i m₀ f stage)
    (hdue : TakeDue t stage) (hstore : b.StoreDue t f.memory)
    (hcapacity : 0 < b.config.capacity.toNat) (htake : purpose i = some (.take token n))
    (htask : f.task i = some (.ask ask held resume)) (r : UInt64) :
    (∃ now, t < now.toNat ∧ b.Charged purpose (.of (some i) r ask f.memory :: f.past) now) ∨
      b.StoreDue t (Moment.of (some i) r ask f.memory).after := by
  have he : (Moment.of (some i) r ask f.memory).Answered := ⟨_, _, _, _, rfl⟩
  obtain ⟨stage', hadvances, -⟩ := h.goes htask r
  by_cases hstores : StoresUnder b.key.stateKey ask
  · obtain ⟨now, state, rfl, hsave⟩ := hadvances.of_stores hstores
    rcases b.due_leftOf hcapacity hdue with hleft | ⟨hn, henough, hlate⟩
    · exact .inr (StoreDue.after hstore he fun _ _ => ⟨_, hsave, hleft⟩)
    · rw [leftOf, if_pos henough] at hsave
      rcases Moment.stored?_of_set he hsave with ⟨-, hstored, -⟩ | ⟨hdown, -⟩
      · exact .inl ⟨now, hlate, i, token, n, htake, hn, state, h.account.1.later, henough, _,
          List.mem_cons_self, rfl, _, hstored, rfl⟩
      · rw [he.after_of_outage hdown]
        exact .inr hstore
  · exact .inr (StoreDue.after hstore he fun hstores' => absurd hstores' hstores)

/-- A question that is answered leaves a token due, or it charges the bucket. -/
theorem AllDue.answered (h : AllDue b t m₀ purpose f) (hcapacity : 0 < b.config.capacity.toNat)
    (hobeys : f.Obeys (b.MayAsk purpose) b.FillsOnly) {party : Option ι} {ask : Ask}
    (hposes : f.Poses ask party) (r : UInt64) :
    (∃ now, t < now.toNat ∧ b.Charged purpose (.of party r ask f.memory :: f.past) now) ∨
      b.StoreDue t (Moment.of party r ask f.memory).after := by
  have hfills (hask : b.FillsOnly ask) : b.StoreDue t (Moment.of party r ask f.memory).after :=
    StoreDue.after_of_fillsOnly h.store ⟨_, _, _, _, rfl⟩ hcapacity hask
  cases party with
  | none =>
      obtain ⟨held, resume, hjob⟩ := hposes
      exact .inr (hfills (hobeys.job _ hjob).1)
  | some i =>
      obtain ⟨held, resume, htask⟩ := hposes
      rcases (hobeys.task i _ htask).1 with ⟨token, n, htake⟩ | hask
      · rcases h.takes i token n htake with hnone | ⟨stage, hstands, hdue⟩
        · cases hnone.symm.trans htask
        · exact hstands.answered hdue h.store hcapacity htake htask r
      · exact .inr (hfills hask)

/-- An act keeps a token due, or it charges the bucket. -/
theorem AllDue.step (h : AllDue b t m₀ purpose f) (hcapacity : 0 < b.config.capacity.toNat)
    (hobeys : f.Obeys (b.MayAsk purpose) b.FillsOnly) (a : Act ι) :
    (∃ now, t < now.toNat ∧ b.Charged purpose (f.step a).past now) ∨
      AllDue b t m₀ purpose (f.step a) := by
  have htakes : ∀ i token n, purpose i = some (.take token n) → (f.step a).task i = none ∨
      ∃ stage, Stands b token n i m₀ (f.step a) stage ∧ TakeDue t stage := by
    intro i token n htake
    rcases h.takes i token n htake with hnone | ⟨stage, hstands, hdue⟩
    · obtain ⟨_, -, -, hgone⟩ := f.exists_newer_run [a] i
      exact .inl (hgone hnone).1
    · rcases hstands.step_cases a with
        hnone | ⟨e, stage', ⟨-, hbefore, -⟩, hadvances, hgoes⟩ | ⟨-, hstands⟩
      · exact .inl hnone
      · refine .inr ⟨stage', hgoes, takeDue_of_advances hdue hadvances fun _ => ?_⟩
        rw [hbefore]
        exact h.store
      · exact .inr ⟨stage, hstands, hdue⟩
  rcases f.step_poses a with ⟨party, r, ask, hposes, -, hpast, hmemory⟩ | ⟨-, hentries⟩
  · refine (h.answered hcapacity hobeys hposes r).imp ?_ ?_
    · rintro ⟨now, hlate, hcharged⟩
      exact ⟨now, hlate, hpast ▸ hcharged⟩
    · exact fun hstore => ⟨hmemory ▸ hstore, htakes⟩
  · exact .inr ⟨h.store.congr hentries, htakes⟩

/-- In a run a token stays due until a take charges the bucket at a later reading. -/
theorem charged_or_allDue_run (hcapacity : 0 < b.config.capacity.toNat)
    (hplays : ∀ i, b.Plays (purpose i) (program i)) (hfresh : m₀.find? b.key.stateKey = none)
    (t : Nat) (acts : List (Act ι)) :
    (∃ now, t < now.toNat ∧ b.Charged purpose ((Fleet.start m₀ program).run acts).past now) ∨
      AllDue b t m₀ purpose ((Fleet.start m₀ program).run acts) := by
  induction acts using List.reverseRecOn with
  | nil => exact .inr (allDue_start hplays hfresh)
  | append_singleton acts a ih =>
      rw [Fleet.run_concat]
      rcases ih with ⟨now, hlate, hcharged⟩ | hdue
      · obtain ⟨newer, hpast⟩ := Fleet.past_step ((Fleet.start m₀ program).run acts) a
        rw [hpast]
        exact .inl ⟨now, hlate, hcharged.mono (List.subset_append_right _ _)⟩
      · exact hdue.step hcapacity (obeys_run hplays acts) a

end Bucket

end FlowControl
