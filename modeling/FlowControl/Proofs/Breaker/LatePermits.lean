import FlowControl.Proofs.Breaker.Generations

/-!
# Late permits

A permit is late when another phase has begun since it was issued, if only by a reset of
a closed breaker.  Giving a late permit back, with any outcome or none, changes
nothing of the breaker and reports nothing.  So the acts that give late permits back
can be struck from a run: every other act is answered as before, leaves the
breaker as before, and the run ends with the same breaker.

Two runs are compared through `settleLate`, which takes all late permits back at
once.  Circuits that agree up to late permits have the same image, and every act
keeps it so.
-/

namespace FlowControl

/-- The permit, out only if it was and a certain phase issued it. -/
def Ticket.outOnlyIn (phase : Nat) (t : Ticket) : Ticket :=
  { t with isOut := t.isOut && t.phase == phase }

/-- A phase that has ended by some moment has ended by every later one. -/
theorem Ticket.outOnlyIn_outOnlyIn {t : Ticket} {p q : Nat} (hissued : t.phase ≤ p) (hle : p ≤ q) :
    (t.outOnlyIn p).outOnlyIn q = t.outOnlyIn q := by
  have hphase : t.phase = q → t.phase = p := by omega
  by_cases hq : t.phase = q
  · simp [outOnlyIn, hq, ← hphase hq]
  · simp [outOnlyIn, beq_eq_false_iff_ne.mpr hq]

namespace Circuit

variable {c d : Circuit} {a : Act} {acts : List Act} {k : Nat} {t : Ticket}

/-- Is a permit given back whose phase has ended? -/
def isLate (c : Circuit) : Act → Bool
  | .settle k _ => c.tickets[k]?.any fun t => t.phase < c.phases
  | _ => false

/-- The acts of a run, each with the circuit that it meets. -/
def trace (c : Circuit) : List Act → List (Circuit × Act)
  | [] => []
  | a :: acts => (c, a) :: (c.step a).trace acts

/-- What is left of a run when the acts that give late permits back are struck. -/
def punctual (c : Circuit) (acts : List Act) : List (Circuit × Act) :=
  (c.trace acts).filter fun m => !m.1.isLate m.2

/-- The circuit with every late permit given back. -/
def settleLate (c : Circuit) : Circuit :=
  { c with tickets := c.tickets.map (Ticket.outOnlyIn c.phases) }

/-! ## Late permits are inert -/

theorem exists_of_isLate {failed : Option Bool} (hlate : c.isLate (.settle k failed) = true) :
    ∃ t, c.tickets[k]? = some t ∧ t.phase < c.phases := by
  simp only [isLate] at hlate
  cases hget : c.tickets[k]? with
  | none => simp [hget] at hlate
  | some t =>
      rw [hget] at hlate
      exact ⟨t, rfl, of_decide_eq_true hlate⟩

theorem Numbered.settle_of_late (h : c.Numbered) (hfew : c.phases < Word.size)
    (hmem : t ∈ c.tickets) (hlate : t.phase ≠ c.phases) (failed : Option Bool) (now : UInt64) :
    c.breaker.settle t.permit failed now = ⟨(), c.breaker, []⟩ := by
  refine Breaker.settle_of_ne failed now fun hgeneration => hlate ?_
  exact (h.generation_eq_iff hfew hmem).mp hgeneration.symm

theorem Numbered.perform_of_late (h : c.Numbered) (hfew : c.phases < Word.size)
    (hlate : c.isLate a = true) : c.perform a = ⟨.done, c.breaker, []⟩ := by
  cases a with
  | settle k failed =>
      obtain ⟨t, hget, hended⟩ := exists_of_isLate hlate
      cases hout : c.out? k with
      | none => simp [perform, hout]
      | some u =>
          obtain ⟨hget', -⟩ := out?_eq_some_iff.mp hout
          cases hget.symm.trans hget'
          have hmem := List.mem_of_getElem? hget
          simp [perform, hout, h.settle_of_late hfew hmem (Nat.ne_of_lt hended),
            Breaker.Step.map]
  | acquire | observe | reset | setClock reading => cases hlate

/-! ## Circuits up to late permits -/

theorem out?_settleLate (c : Circuit) (k : Nat) :
    c.settleLate.out? k = (c.out? k).filter fun t => t.phase == c.phases := by
  have hmap : c.settleLate.tickets[k]? = c.tickets[k]?.map (Ticket.outOnlyIn c.phases) :=
    List.getElem?_map
  unfold out?
  rw [hmap]
  cases hget : c.tickets[k]? with
  | none => rfl
  | some t =>
      obtain ⟨permit, phase, isOut⟩ := t
      cases isOut with
      | true =>
          by_cases hthis : phase = c.phases
          · simp [Ticket.outOnlyIn, Option.filter_some, hthis]
          · simp [Ticket.outOnlyIn, Option.filter_some, hthis]
      | false => simp [Ticket.outOnlyIn, Option.filter_some]

theorem Numbered.perform_settleLate (h : c.Numbered) (hfew : c.phases < Word.size) (a : Act) :
    c.settleLate.perform a = c.perform a := by
  cases a with
  | settle k failed =>
      cases hout : c.out? k with
      | none =>
          have hnone : c.settleLate.out? k = none := by simp [out?_settleLate, hout]
          simp only [perform, hout, hnone]
          rfl
      | some t =>
          by_cases hthis : t.phase = c.phases
          · have hsome : c.settleLate.out? k = some t := by simp [out?_settleLate, hout, hthis]
            simp only [perform, hout, hsome]
            rfl
          · have hnone : c.settleLate.out? k = none := by simp [out?_settleLate, hout, hthis]
            have hmem := List.mem_of_getElem? (out?_eq_some_iff.mp hout).1
            simp only [perform, hout, hnone, h.settle_of_late hfew hmem hthis]
            rfl
  | acquire | observe | reset | setClock reading => rfl

theorem map_outOnlyIn_settleLate (hissued : ∀ t ∈ c.tickets, t.phase ≤ c.phases) {q : Nat}
    (hle : c.phases ≤ q) :
    c.settleLate.tickets.map (Ticket.outOnlyIn q) = c.tickets.map (Ticket.outOnlyIn q) := by
  show (c.tickets.map _).map _ = _
  rw [List.map_map]
  exact List.map_congr_left fun t ht => Ticket.outOnlyIn_outOnlyIn (hissued t ht) hle

theorem settleLate_follow (hissued : ∀ t ∈ c.tickets, t.phase ≤ c.phases) (b : Breaker) :
    (c.settleLate.follow b).settleLate = (c.follow b).settleLate := by
  have hle : c.phases ≤ (c.follow b).phases := by
    unfold follow
    split
    · exact Nat.le_refl _
    · exact Nat.le_succ _
  exact congrArg (fun tickets => { c.follow b with tickets })
    (map_outOnlyIn_settleLate hissued hle)

theorem settleLate_settleLate (c : Circuit) : c.settleLate.settleLate = c.settleLate := by
  unfold settleLate
  simp [Ticket.outOnlyIn, Function.comp_def]

theorem settleLate_issue (c : Circuit) (permit : Permit) :
    (c.settleLate.issue permit).settleLate = (c.issue permit).settleLate := by
  unfold settleLate issue
  simp [Ticket.outOnlyIn, Function.comp_def]

/-- To take a late permit back changes nothing that will ever matter. -/
theorem settleLate_giveBack_of_late (hout : c.out? k = some t) (hlate : t.phase ≠ c.phases) :
    (c.giveBack k).settleLate = c.settleLate := by
  obtain ⟨hget, -⟩ := out?_eq_some_iff.mp hout
  obtain ⟨hlt, hget⟩ := List.getElem?_eq_some_iff.mp hget
  have hsame : Ticket.outOnlyIn c.phases { t with isOut := false } = t.outOnlyIn c.phases := by
    simp [Ticket.outOnlyIn, beq_eq_false_iff_ne.mpr hlate]
  have htickets : (c.tickets.set k { t with isOut := false }).map (Ticket.outOnlyIn c.phases) =
      c.tickets.map (Ticket.outOnlyIn c.phases) := by
    rw [List.map_set, hsame, ← List.map_set, ← hget, List.set_getElem_self]
  rw [giveBack_of_some hout]
  exact congrArg (fun tickets => { c with tickets }) htickets

theorem settleLate_giveBack (c : Circuit) (k : Nat) :
    (c.settleLate.giveBack k).settleLate = (c.giveBack k).settleLate := by
  cases hout : c.out? k with
  | none =>
      have hnone : c.settleLate.out? k = none := by simp [out?_settleLate, hout]
      rw [giveBack_of_none hout, giveBack_of_none hnone, settleLate_settleLate]
  | some t =>
      by_cases hthis : t.phase = c.phases
      · have hsome : c.settleLate.out? k = some t := by simp [out?_settleLate, hout, hthis]
        have hidem : (c.tickets.map (Ticket.outOnlyIn c.phases)).map (Ticket.outOnlyIn c.phases) =
            c.tickets.map (Ticket.outOnlyIn c.phases) :=
          congrArg Circuit.tickets (settleLate_settleLate c)
        have htickets : ((c.tickets.map (Ticket.outOnlyIn c.phases)).set k
              { t with isOut := false }).map (Ticket.outOnlyIn c.phases) =
            (c.tickets.set k { t with isOut := false }).map (Ticket.outOnlyIn c.phases) := by
          rw [List.map_set, List.map_set, hidem]
        rw [giveBack_of_some hout, giveBack_of_some hsome]
        exact congrArg (fun tickets => { c with tickets }) htickets
      · have hnone : c.settleLate.out? k = none := by simp [out?_settleLate, hout, hthis]
        rw [giveBack_of_none hnone, settleLate_giveBack_of_late hout hthis,
          settleLate_settleLate]

/-- What an act does does not depend on late permits, up to late permits. -/
theorem Numbered.settleLate_step (h : c.Numbered) (hfew : c.phases < Word.size) (a : Act) :
    (c.settleLate.step a).settleLate = (c.step a).settleLate := by
  have hissued : ∀ t ∈ c.tickets, t.phase ≤ c.phases := fun t ht => (h.issued t ht).1
  have hfollow : ∀ b, (c.settleLate.follow b).settleLate = (c.follow b).settleLate :=
    settleLate_follow hissued
  cases a with
  | acquire =>
      cases hanswer : (c.breaker.tryAcquire c.now).answer with
      | ok permit =>
          rw [step_acquire_of_ok hanswer, step_acquire_of_ok (c := c.settleLate) hanswer]
          rw [← settleLate_issue, hfollow, settleLate_issue]
          rfl
      | error remaining =>
          rw [step_acquire_of_error hanswer, step_acquire_of_error (c := c.settleLate) hanswer]
          exact hfollow _
  | settle k failed =>
      show ((c.settleLate.follow (c.settleLate.perform _).breaker).giveBack k).settleLate =
        ((c.follow (c.perform _).breaker).giveBack k).settleLate
      rw [h.perform_settleLate hfew, ← settleLate_giveBack, hfollow, settleLate_giveBack]
  | observe => exact hfollow _
  | reset =>
      exact congrArg (fun tickets => { c.enter _ with tickets })
        (map_outOnlyIn_settleLate hissued (Nat.le_succ _))
  | setClock reading =>
      exact congrArg (fun tickets => { c with now := reading, tickets })
        (map_outOnlyIn_settleLate hissued (Nat.le_refl _))

theorem settleLate_step_of_late (hlate : c.isLate a = true) (h : c.Numbered)
    (hfew : c.phases < Word.size) : (c.step a).settleLate = c.settleLate := by
  cases a with
  | settle k failed =>
      obtain ⟨t, hget, hended⟩ := exists_of_isLate hlate
      cases hout : c.out? k with
      | none => rw [step_settle_of_none failed hout]
      | some u =>
          obtain ⟨hget', -⟩ := out?_eq_some_iff.mp hout
          cases hget.symm.trans hget'
          have hmem := List.mem_of_getElem? hget
          have hne := Nat.ne_of_lt hended
          rw [step_settle_of_some failed hout, h.settle_of_late hfew hmem hne, follow_breaker,
            settleLate_giveBack_of_late hout hne]
  | acquire | observe | reset | setClock reading => cases hlate

/-! ## Runs -/

theorem of_mem_trace (h : c.Numbered) {m : Circuit × Act} (hm : m ∈ c.trace acts) :
    m.1.Numbered ∧ m.1.phases ≤ (c.run acts).phases := by
  induction acts generalizing c with
  | nil => cases hm
  | cons a acts ih =>
      rcases List.mem_cons.mp hm with rfl | hm
      · exact ⟨h, phases_le_run c (a :: acts)⟩
      · exact ih (h.step a) hm

/-- A run and what is left of it without late permits, from circuits that agree up to late
permits. -/
theorem trace_punctual (hc : c.Numbered) (hd : d.Numbered) (halike : d.settleLate = c.settleLate)
    (hfew : (c.run acts).phases < Word.size) :
    (d.trace ((c.punctual acts).map Prod.snd)).map (fun m => m.1.perform m.2) =
      (c.punctual acts).map (fun m => m.1.perform m.2) ∧
    (d.run ((c.punctual acts).map Prod.snd)).settleLate = (c.run acts).settleLate := by
  induction acts generalizing c d with
  | nil => exact ⟨rfl, halike⟩
  | cons a acts ih =>
      have hhere : c.phases < Word.size := Nat.lt_of_le_of_lt (phases_le_run c (a :: acts)) hfew
      by_cases hlate : c.isLate a = true
      · -- The act is struck, and only the circuit of the whole run takes the step.
        have hstruck : c.punctual (a :: acts) = (c.step a).punctual acts := by
          simp [punctual, trace, hlate]
        rw [hstruck]
        exact ih (hc.step a) hd (halike.trans (settleLate_step_of_late hlate hc hhere).symm) hfew
      · have hkept : c.punctual (a :: acts) = (c, a) :: (c.step a).punctual acts := by
          simp [punctual, trace, hlate]
        have hphases : d.settleLate.phases = c.settleLate.phases := by rw [halike]
        have hthere : d.settleLate.phases < Word.size := hphases ▸ hhere
        have hperform : d.perform a = c.perform a := by
          rw [← hd.perform_settleLate hthere, halike, hc.perform_settleLate hhere]
        have hstep : (d.step a).settleLate = (c.step a).settleLate := by
          rw [← hd.settleLate_step hthere, halike, hc.settleLate_step hhere]
        obtain ⟨htrace, hrun⟩ := ih (hc.step a) (hd.step a) hstep hfew
        rw [hkept]
        refine ⟨?_, hrun⟩
        simp only [List.map_cons, trace, hperform, htrace]

/-- Late permits are inert.  As long as generations do not wrap around, giving back a permit of a
phase that has ended changes nothing of the breaker and reports nothing; and if all such acts are
struck from a run, the others get the same answers and make the same reports, each leaves the same
breaker, and so does the run. -/
theorem late_permits_inert (config : BreakerConfig) (now : UInt64) (acts : List Act)
    (hfew : ((start config now).run acts).phases < Word.size) :
    let c := start config now
    (∀ m ∈ c.trace acts, m.1.isLate m.2 = true →
      (m.1.step m.2).breaker = m.1.breaker ∧ m.1.perform m.2 = ⟨.done, m.1.breaker, []⟩) ∧
    (c.trace ((c.punctual acts).map Prod.snd)).map (fun m => m.1.perform m.2) =
      (c.punctual acts).map (fun m => m.1.perform m.2) ∧
    (c.run ((c.punctual acts).map Prod.snd)).breaker = (c.run acts).breaker := by
  intro c
  have hstart : c.Numbered := numbered_start config now
  obtain ⟨htrace, hrun⟩ := trace_punctual hstart hstart rfl hfew
  have hbreaker : (c.run ((c.punctual acts).map Prod.snd)).settleLate.breaker =
      (c.run acts).settleLate.breaker := by rw [hrun]
  refine ⟨?_, htrace, hbreaker⟩
  intro m hm hlate
  obtain ⟨hnumbered, hle⟩ := of_mem_trace hstart hm
  have hperform := hnumbered.perform_of_late (Nat.lt_of_le_of_lt hle hfew) hlate
  exact ⟨by rw [breaker_step, hperform], hperform⟩

/-- A failure that is recorded after a reset is not counted: the breaker is as if the call before
the reset had never ended. -/
theorem late_permits_inert_after_reset :
    let c := start ⟨⟨2, 2⟩, ⟨1, 1⟩, .ofSecs 1⟩ 0
    let acts : List Act := [.acquire, .reset, .acquire, .settle 0 (some true),
      .settle 1 (some true)]
    (c.run acts).phases < Word.size ∧
      (c.punctual acts).map Prod.snd = [.acquire, .reset, .acquire, .settle 1 (some true)] ∧
      (c.run [.acquire, .reset, .acquire, .settle 1 (some true)]).breaker =
        (c.run acts).breaker := by
  intro c acts
  have hfew : (c.run acts).phases < Word.size := by decide
  have hkept : (c.punctual acts).map Prod.snd =
      [.acquire, .reset, .acquire, .settle 1 (some true)] := by decide
  obtain ⟨-, -, hrun⟩ := late_permits_inert ⟨⟨2, 2⟩, ⟨1, 1⟩, .ofSecs 1⟩ 0 acts hfew
  rw [hkept] at hrun
  exact ⟨hfew, hkept, hrun⟩

end Circuit

end FlowControl
