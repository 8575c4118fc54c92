import FlowControl.Proofs.Breaker.Generations

/-!
# The slots of a half-open breaker

A half-open breaker counts the probes that it has let out and that have not come back.
The count is exact: it is the number of permits of the phase at hand that are still
out, whatever happened to permits of earlier phases.  So a probe that comes back always
finds its slot taken, no slot is lost, and a permit is refused exactly if all slots
are taken.

This needs generations that have not wrapped around.  The configuration may be any.
-/

namespace FlowControl.Circuit

variable {c c' : Circuit} {a : Act} {k : Nat} {t : Ticket}
  {window : OutcomeWindow} {inFlight : Nat}

/-- The number of permits that are out and pass a test. -/
def countOut (c : Circuit) (p : Ticket → Bool) : Nat :=
  c.tickets.countP fun t => t.isOut && p t

/-- The number of permits that a phase issued and that are still out. -/
def outIn (c : Circuit) (phase : Nat) : Nat := c.countOut fun t => t.phase == phase

/-- The number of probes that a phase issued and that are still out. -/
def probesOutIn (c : Circuit) (phase : Nat) : Nat :=
  c.countOut fun t => t.phase == phase && t.permit.isProbe

/-! ## Counting permits that are out -/

theorem countOut_issue (c : Circuit) (permit : Permit) (p : Ticket → Bool) :
    (c.issue permit).countOut p =
      c.countOut p + if p ⟨permit, c.phases, true⟩ then 1 else 0 := by
  simp [countOut, issue, List.countP_append, List.countP_cons]

theorem countOut_giveBack (hout : c.out? k = some t) (p : Ticket → Bool) :
    c.countOut p = (c.giveBack k).countOut p + if p t then 1 else 0 := by
  obtain ⟨hget, hisOut⟩ := out?_eq_some_iff.mp hout
  obtain ⟨hlt, hget⟩ := List.getElem?_eq_some_iff.mp hget
  rw [giveBack_of_some hout]
  unfold countOut
  rw [List.countP_set hlt, hget]
  by_cases hp : p t = true
  · have hpositive : 0 < c.tickets.countP fun t => t.isOut && p t :=
      List.countP_pos_iff.mpr ⟨t, hget ▸ List.getElem_mem hlt, by simp [hisOut, hp]⟩
    simp only [hisOut, hp, Bool.true_and, Bool.false_and, if_true, Bool.false_eq_true, if_false]
    omega
  · simp [hp]

theorem countOut_giveBack_le (c : Circuit) (k : Nat) (p : Ticket → Bool) :
    (c.giveBack k).countOut p ≤ c.countOut p := by
  cases hout : c.out? k with
  | none => simp [giveBack_of_none hout]
  | some t =>
      have hcount := countOut_giveBack hout p
      omega

theorem outIn_issue (c : Circuit) (permit : Permit) :
    (c.issue permit).outIn c.phases = c.outIn c.phases + 1 := by
  have hissue := countOut_issue c permit fun t => t.phase == c.phases
  rw [beq_self_eq_true, if_pos rfl] at hissue
  exact hissue

theorem probesOutIn_issue_le (c : Circuit) (permit : Permit) (phase : Nat) :
    (c.issue permit).probesOutIn phase ≤
      c.probesOutIn phase + if phase = c.phases ∧ permit.isProbe = true then 1 else 0 := by
  have hissue := countOut_issue c permit fun t => t.phase == phase && t.permit.isProbe
  refine Nat.le_of_eq (hissue.trans (congrArg (c.probesOutIn phase + ·) ?_))
  by_cases hthis : phase = c.phases
  · simp [hthis]
  · simp [hthis, beq_eq_false_iff_ne.mpr (Ne.symm hthis)]

theorem outIn_giveBack_of_current (hout : c.out? k = some t) (hthis : t.phase = c.phases) :
    c.outIn c.phases = (c.giveBack k).outIn c.phases + 1 := by
  have hgive := countOut_giveBack hout fun t => t.phase == c.phases
  rw [hthis, beq_self_eq_true, if_pos rfl] at hgive
  exact hgive

theorem outIn_giveBack_of_other (hout : c.out? k = some t) (hother : t.phase ≠ c.phases) :
    (c.giveBack k).outIn c.phases = c.outIn c.phases := by
  have hgive := countOut_giveBack hout fun t => t.phase == c.phases
  rw [beq_eq_false_iff_ne.mpr hother, if_neg (by decide)] at hgive
  exact hgive.symm

theorem probesOutIn_le_outIn (c : Circuit) (phase : Nat) :
    c.probesOutIn phase ≤ c.outIn phase := by
  refine List.countP_mono_left fun t _ h => ?_
  simp only [Bool.and_eq_true] at h ⊢
  exact ⟨h.1, h.2.1⟩

theorem probesOutIn_eq_outIn {phase : Nat}
    (h : ∀ t ∈ c.tickets, t.phase = phase → t.permit.isProbe = true) :
    c.probesOutIn phase = c.outIn phase := by
  refine List.countP_congr fun t ht => ?_
  have hprobe := h t ht
  simp only [Bool.and_eq_true, beq_iff_eq]
  constructor
  · rintro ⟨hout, hphase, -⟩
    exact ⟨hout, hphase⟩
  · rintro ⟨hout, hphase⟩
    exact ⟨hout, hphase, hprobe hphase⟩

/-- No permit of a phase is out before the phase has begun. -/
theorem Numbered.outIn_next (h : c.Numbered) : c.outIn (c.phases + 1) = 0 := by
  refine List.countP_eq_zero.mpr fun t ht hnext => ?_
  have hle := (h.issued t ht).1
  simp only [Bool.and_eq_true, beq_iff_eq] at hnext
  omega

/-! ## The invariant -/

/-- The slots of a half-open phase are taken by the permits of this phase that are out, and no
phase has more probes out than there are slots. -/
structure Slotted (c : Circuit) : Prop where
  inFlight_eq : ∀ window inFlight, c.breaker.phase = .halfOpen window inFlight →
    inFlight = c.outIn c.phases
  inFlight_le : ∀ window inFlight, c.breaker.phase = .halfOpen window inFlight →
    inFlight ≤ c.breaker.config.success.capacity
  isProbe : ∀ window inFlight, c.breaker.phase = .halfOpen window inFlight →
    ∀ t ∈ c.tickets, t.phase = c.phases → t.permit.isProbe = true
  probesOutIn_le : ∀ phase, c.probesOutIn phase ≤ c.breaker.config.success.capacity

theorem slotted_start (config : BreakerConfig) (now : UInt64) : (start config now).Slotted :=
  ⟨nofun, nofun, nofun, fun _ => Nat.zero_le _⟩

/-- Outside half-open phases only the probes of earlier phases matter. -/
theorem slotted_of_not_halfOpen (hkind : c.breaker.phase.kind ≠ .halfOpen)
    (hprobes : ∀ phase, c.probesOutIn phase ≤ c.breaker.config.success.capacity) :
    c.Slotted := by
  have hnot : ∀ window inFlight, c.breaker.phase ≠ .halfOpen window inFlight := by
    intro window inFlight hphase
    rw [hphase] at hkind
    exact hkind rfl
  exact ⟨fun w n h => absurd h (hnot w n), fun w n h => absurd h (hnot w n),
    fun w n h => absurd h (hnot w n), hprobes⟩

theorem Slotted.probesOutIn_giveBack_le (h : c.Slotted) (k phase : Nat) :
    (c.giveBack k).probesOutIn phase ≤ (c.giveBack k).breaker.config.success.capacity := by
  rw [breaker_giveBack]
  exact Nat.le_trans (countOut_giveBack_le c k _) (h.probesOutIn_le phase)

theorem Slotted.giveBack_of_not_halfOpen (h : c.Slotted)
    (hkind : c.breaker.phase.kind ≠ .halfOpen) (k : Nat) : (c.giveBack k).Slotted :=
  slotted_of_not_halfOpen (by rw [breaker_giveBack]; exact hkind) (h.probesOutIn_giveBack_le k)

/-- A half-open phase begins with all slots free. -/
theorem Slotted.enter_freshHalfOpen (h : c.Slotted) (hnumbered : c.Numbered) :
    (c.enter (Breaker.freshHalfOpen c.breaker.config)).Slotted where
  inFlight_eq window inFlight hphase := by
    cases hphase
    exact hnumbered.outIn_next.symm
  inFlight_le window inFlight hphase := by
    cases hphase
    exact Nat.zero_le _
  isProbe window inFlight hphase t ht hnext := by
    have hle := (hnumbered.issued t ht).1
    have hnext : t.phase = c.phases + 1 := hnext
    omega
  probesOutIn_le := h.probesOutIn_le

/-- A probe that is let out takes a free slot. -/
theorem Slotted.issue_probe (h : c.Slotted) (hphase : c.breaker.phase = .halfOpen window inFlight)
    (hroom : inFlight < c.breaker.config.success.capacity) (generation : UInt64) :
    ((c.inPhase (.halfOpen window (inFlight + 1))).issue ⟨generation, true⟩).Slotted := by
  have hcount : inFlight = c.outIn c.phases := h.inFlight_eq window inFlight hphase
  refine ⟨?_, ?_, ?_, ?_⟩
  · intro w n hnew
    cases hnew
    rw [hcount]
    exact (outIn_issue (c.inPhase _) _).symm
  · intro w n hnew
    cases hnew
    exact hroom
  · intro w n _ t ht hthis
    rcases List.mem_append.mp ht with ht | ht
    · exact h.isProbe window inFlight hphase t ht hthis
    · rw [List.mem_singleton.mp ht]
  · intro phase
    refine Nat.le_trans (probesOutIn_issue_le (c.inPhase _) _ phase) ?_
    change c.probesOutIn phase + (if phase = c.phases ∧ true = true then 1 else 0) ≤
      c.breaker.config.success.capacity
    have hle := h.probesOutIn_le phase
    by_cases hthis : phase = c.phases
    · -- The phase at hand had a slot free, so one more of its probes fits.
      have hprobes := probesOutIn_le_outIn c phase
      rw [hthis] at hprobes ⊢
      simp only [and_self, if_true]
      omega
    · simp only [hthis, false_and, if_false]
      exact hle

/-- A permit of another phase frees no slot. -/
theorem Slotted.giveBack_of_other (h : c.Slotted) (hout : c.out? k = some t)
    (hother : t.phase ≠ c.phases) : (c.giveBack k).Slotted := by
  refine ⟨?_, ?_, ?_, h.probesOutIn_giveBack_le k⟩
  · intro w n hphase
    rw [breaker_giveBack] at hphase
    rw [phases_giveBack, outIn_giveBack_of_other hout hother]
    exact h.inFlight_eq w n hphase
  · intro w n hphase
    rw [breaker_giveBack] at hphase ⊢
    exact h.inFlight_le w n hphase
  · intro w n hphase u hu hthis
    rw [breaker_giveBack] at hphase
    obtain ⟨v, hv, hpermit, hsame⟩ := exists_mem_of_mem_giveBack hu
    rw [phases_giveBack, hsame] at hthis
    rw [hpermit]
    exact h.isProbe w n hphase v hv hthis

/-- A permit of the half-open phase at hand frees its slot, whatever becomes of the window. -/
theorem Slotted.giveBack_of_current (h : c.Slotted)
    (hphase : c.breaker.phase = .halfOpen window inFlight) (hout : c.out? k = some t)
    (hthis : t.phase = c.phases) (window' : OutcomeWindow) :
    ((c.inPhase (.halfOpen window'
      (if t.permit.isProbe then inFlight - 1 else inFlight))).giveBack k).Slotted := by
  have hmem : t ∈ c.tickets := List.mem_of_getElem? (out?_eq_some_iff.mp hout).1
  rw [h.isProbe window inFlight hphase t hmem hthis, if_pos rfl]
  have hcount : c.outIn c.phases =
      ((c.inPhase (.halfOpen window' (inFlight - 1))).giveBack k).outIn c.phases + 1 :=
    outIn_giveBack_of_current (c := c.inPhase (.halfOpen window' (inFlight - 1))) hout hthis
  have hinFlight := h.inFlight_eq window inFlight hphase
  have hle := h.inFlight_le window inFlight hphase
  refine ⟨?_, ?_, ?_, ?_⟩
  · intro w n hnew
    rw [breaker_giveBack] at hnew
    cases hnew
    rw [phases_giveBack]
    change inFlight - 1 = outIn _ c.phases
    omega
  · intro w n hnew
    rw [breaker_giveBack] at hnew ⊢
    cases hnew
    exact Nat.le_trans (Nat.sub_le ..) hle
  · intro w n _ u hu hsame
    obtain ⟨v, hv, hpermit, hphase'⟩ := exists_mem_of_mem_giveBack hu
    rw [phases_giveBack, hphase'] at hsame
    rw [hpermit]
    exact h.isProbe window inFlight hphase v hv hsame
  · intro phase
    rw [breaker_giveBack]
    exact Nat.le_trans (countOut_giveBack_le _ k _) (h.probesOutIn_le phase)

theorem Slotted.enter_of_not_halfOpen (h : c.Slotted) {phase : Phase}
    (hkind : phase.kind ≠ .halfOpen) : (c.enter phase).Slotted :=
  slotted_of_not_halfOpen hkind h.probesOutIn_le

/-- Every act keeps the count of the slots exact. -/
theorem Effect.slotted (heffect : c.Effect a c') (hnumbered : c.Numbered) (h : c.Slotted)
    (hfew : c'.phases < Word.size) : c'.Slotted := by
  induction heffect with
  | clock => exact ⟨h.inFlight_eq, h.inFlight_le, h.isProbe, h.probesOutIn_le⟩
  | looks | rejects | full | missing => exact h
  | resets => exact h.enter_of_not_halfOpen nofun
  | stirs => exact h.enter_freshHalfOpen hnumbered
  | wakes hphase hlate hthen ih =>
      exact ih (hnumbered.enter _) (h.enter_freshHalfOpen hnumbered) hfew
  | admits c hphase =>
      -- A closed phase hands out no probes, so no phase has more of them out.
      have hkind : c.breaker.phase.kind ≠ .halfOpen := by rw [hphase]; nofun
      refine slotted_of_not_halfOpen hkind fun phase => ?_
      refine Nat.le_trans (probesOutIn_issue_le c _ phase) ?_
      simp only [Bool.false_eq_true, and_false, if_false]
      exact h.probesOutIn_le phase
  | probes c hphase hroom => exact h.issue_probe hphase hroom _
  | late c failed hout hgeneration =>
      rw [phases_giveBack] at hfew
      have hmem := List.mem_of_getElem? (out?_eq_some_iff.mp hout).1
      -- The generations differ, so another phase issued the permit, and its slot is not here.
      refine h.giveBack_of_other hout fun hthis => hgeneration ?_
      exact (hnumbered.generation_eq_iff hfew hmem).mpr hthis
  | idle c failed hout hphase | forgets c hout hphase =>
      exact h.giveBack_of_not_halfOpen (by rw [hphase]; nofun) _
  | counts c hout hgeneration hphase =>
      refine Slotted.giveBack_of_not_halfOpen ?_ ?_ _
      · exact slotted_of_not_halfOpen nofun h.probesOutIn_le
      · nofun
  | trips | recovers | relapses =>
      refine Slotted.giveBack_of_not_halfOpen (h.enter_of_not_halfOpen ?_) ?_ _
      · nofun
      · nofun
  | frees c hout hgeneration hphase | weighs c hout hgeneration hphase =>
      rw [phases_giveBack] at hfew
      have hmem := List.mem_of_getElem? (out?_eq_some_iff.mp hout).1
      exact h.giveBack_of_current hphase hout
        ((hnumbered.generation_eq_iff hfew hmem).mp hgeneration) _

theorem slotted_run (hnumbered : c.Numbered) (h : c.Slotted) {acts : List Act}
    (hfew : (c.run acts).phases < Word.size) : (c.run acts).Slotted := by
  -- The bound on the end of the run bounds every step, since the count of phases never falls.
  induction acts generalizing c with
  | nil => exact h
  | cons a acts ih =>
      have hstep : (c.step a).phases < Word.size :=
        Nat.lt_of_le_of_lt (phases_le_run (c.step a) acts) hfew
      exact ih (hnumbered.step a) ((effect_step c a).slotted hnumbered h hstep) hfew

/-- A half-open breaker refuses a permit exactly if all slots are taken. -/
theorem refuses_iff_of_halfOpen (hphase : c.breaker.phase = .halfOpen window inFlight) :
    (∃ remaining, (c.perform .acquire).answer = .admission (.error remaining)) ↔
      c.breaker.config.success.capacity ≤ inFlight := by
  have hperform : (c.perform .acquire).answer =
      .admission (c.breaker.tryAcquire c.now).answer := rfl
  rw [hperform]
  by_cases hroom : inFlight < c.breaker.config.success.capacity
  · rw [Breaker.tryAcquire_of_room c.now hphase hroom]
    constructor
    · rintro ⟨remaining, hanswer⟩
      cases hanswer
    · omega
  · have hfull := Nat.not_lt.mp hroom
    rw [Breaker.tryAcquire_of_full c.now hphase hfull]
    exact ⟨fun _ => hfull, fun _ => ⟨.zero, rfl⟩⟩

/-- A probe of the phase at hand that is dropped leaves its slot free. -/
theorem phase_step_drop (hphase : c.breaker.phase = .halfOpen window inFlight)
    (hout : c.out? k = some t) (hgeneration : t.permit.generation = c.breaker.generation)
    (hprobe : t.permit.isProbe = true) :
    (c.step (.settle k none)).breaker.phase = .halfOpen window (inFlight - 1) := by
  rw [step_settle_of_some none hout, breaker_giveBack,
    Breaker.settle_none_of_halfOpen c.now hgeneration hphase, hprobe]
  rfl

/-- The slots of a half-open breaker are accounted for.  As long as generations do not wrap around,
the count of the phase is the number of its permits that are out, all of them probes; it never
exceeds the slots; a probe that comes back finds at least one slot taken, and a dropped one frees
it; a permit is refused exactly if as many probes of the phase are out as there are slots.  No
phase, past or present, ever has more probes out than that. -/
theorem halfOpen_slots (config : BreakerConfig) (now : UInt64) (acts : List Act)
    (hfew : ((start config now).run acts).phases < Word.size) :
    let c := (start config now).run acts
    (∀ window inFlight, c.breaker.phase = .halfOpen window inFlight →
      inFlight = c.outIn c.phases ∧ inFlight ≤ config.success.capacity ∧
      (∀ t ∈ c.tickets, t.phase = c.phases → t.permit.isProbe = true) ∧
      (∀ k t, c.out? k = some t → t.permit.generation = c.breaker.generation →
        1 ≤ inFlight ∧
        (c.step (.settle k none)).breaker.phase = .halfOpen window (inFlight - 1)) ∧
      ((∃ remaining, (c.perform .acquire).answer = .admission (.error remaining)) ↔
        c.probesOutIn c.phases = config.success.capacity)) ∧
    ∀ phase, c.probesOutIn phase ≤ config.success.capacity := by
  intro c
  have hnumbered : c.Numbered := numbered_run (numbered_start config now) acts
  have hslotted : c.Slotted := slotted_run (numbered_start config now) (slotted_start config now)
    hfew
  have hconfig : c.breaker.config = config := config_run (start config now) acts
  refine ⟨?_, fun phase => hconfig ▸ hslotted.probesOutIn_le phase⟩
  intro window inFlight hphase
  have hcount := hslotted.inFlight_eq window inFlight hphase
  have hle := hslotted.inFlight_le window inFlight hphase
  have hprobe := hslotted.isProbe window inFlight hphase
  rw [hconfig] at hle
  refine ⟨hcount, hle, hprobe, ?_, ?_⟩
  · intro k t hout hgeneration
    have hmem := List.mem_of_getElem? (out?_eq_some_iff.mp hout).1
    have hthis := (hnumbered.generation_eq_iff hfew hmem).mp hgeneration
    have hgive := outIn_giveBack_of_current hout hthis
    exact ⟨by omega, phase_step_drop hphase hout hgeneration (hprobe t hmem hthis)⟩
  · rw [refuses_iff_of_halfOpen hphase, probesOutIn_eq_outIn hprobe, hconfig]
    omega

/-- Two slots, both taken: the second probe of the first half-open phase is the last one. -/
theorem halfOpen_slots_two :
    let config : BreakerConfig := ⟨⟨1, 1⟩, ⟨1, 2⟩, .ofSecs 1⟩
    let acts : List Act := [.acquire, .settle 0 (some true), .setClock 1000, .acquire, .acquire]
    ((start config 0).run acts).phases < Word.size ∧
      ((start config 0).run acts).breaker.phase = .halfOpen (.empty 2) 2 ∧
      ((start config 0).run acts).probesOutIn 2 = 2 ∧
      ∃ remaining, (((start config 0).run acts).perform .acquire).answer =
        .admission (.error remaining) := by
  intro config acts
  have hfew : ((start config 0).run acts).phases < Word.size := by decide
  have hphase : ((start config 0).run acts).breaker.phase = .halfOpen (.empty 2) 2 := by decide
  have hprobes : ((start config 0).run acts).probesOutIn 2 = 2 := by decide
  obtain ⟨hslots, -⟩ := halfOpen_slots config 0 acts hfew
  obtain ⟨-, -, -, -, hrefuses⟩ := hslots _ 2 hphase
  have hphases : ((start config 0).run acts).phases = 2 := by decide
  rw [hphases] at hrefuses
  exact ⟨hfew, hphase, hprobes, hrefuses.mpr hprobes⟩

end FlowControl.Circuit
