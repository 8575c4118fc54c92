import FlowControl.Proofs.Breaker.ClosedWindow
import Mathlib.Data.Bool.Count
import Mathlib.Data.Nat.Find

/-!
# What a half-open breaker decides

A half-open breaker lets a number of probes run and asks for some successes among them.  It
does not wait for all outcomes: it decides as soon as enough are successes, or as soon as
so many are failures that the rest cannot make up for them.  The early decision is the one
that the full tally would have given, whatever outcomes were still to come, and a full tally
always gives one.

Outcomes count in the order in which they are recorded on the permits of the phase.  They may be
fewer than a full tally, and more of them may come when the phase is over.  A reset ends a
phase without a decision, so there is none while the phase lasts.
-/

namespace FlowControl

namespace Ratio

variable {r : Ratio} {outcomes tally : List Bool}

/-- Are enough outcomes successes? -/
def isMet (r : Ratio) (outcomes : List Bool) : Bool :=
  decide (r.threshold ≤ outcomes.count false)

/-- Are so many outcomes failures that a full tally cannot have enough successes? -/
def isMissed (r : Ratio) (outcomes : List Bool) : Bool :=
  decide (r.capacity - r.threshold < outcomes.count true)

/-- Do the outcomes so far tell what a full tally will say? -/
def isSettled (r : Ratio) (outcomes : List Bool) : Bool := r.isMet outcomes || r.isMissed outcomes

theorem isSettled_eq_true_iff :
    r.isSettled outcomes = true ↔
      r.threshold ≤ outcomes.count false ∨ r.capacity - r.threshold < outcomes.count true := by
  simp [isSettled, isMet, isMissed]

/-- What is settled stays so, whatever comes next. -/
theorem isSettled_of_prefix (h : outcomes <+: tally) (hsettled : r.isSettled outcomes = true) :
    r.isSettled tally = true := by
  have hsuccesses := h.sublist.count_le false
  have hfailures := h.sublist.count_le true
  rw [isSettled_eq_true_iff] at hsettled ⊢
  omega

/-- A full tally settles the matter. -/
theorem isSettled_of_full (hvalid : r.threshold ≤ r.capacity) (hfull : tally.length = r.capacity) :
    r.isSettled tally = true := by
  have hsum := List.count_true_add_count_false tally
  rw [isSettled_eq_true_iff]
  omega

/-- Some first outcomes of a full tally are the fewest that settle the matter. -/
theorem exists_least_settled (hvalid : r.threshold ≤ r.capacity)
    (hfull : tally.length = r.capacity) :
    ∃ j ≤ r.capacity, r.isSettled (tally.take j) = true ∧
      ∀ i < j, r.isSettled (tally.take i) = false := by
  have hall : r.isSettled (tally.take r.capacity) = true := by
    rw [List.take_of_length_le (Nat.le_of_eq hfull)]
    exact isSettled_of_full hvalid hfull
  have hsome : ∃ j, r.isSettled (tally.take j) = true := ⟨_, hall⟩
  refine ⟨Nat.find hsome, Nat.find_min' hsome hall, Nat.find_spec hsome, fun i hi => ?_⟩
  exact Bool.eq_false_iff.mpr (Nat.find_min hsome hi)

/-- Outcomes that settle the matter say what the full tally says. -/
theorem isMet_of_settled (hvalid : r.threshold ≤ r.capacity) (hfull : tally.length = r.capacity)
    (h : outcomes <+: tally) (hsettled : r.isSettled outcomes = true) :
    r.isMet outcomes = r.isMet tally := by
  have hsum := List.count_true_add_count_false tally
  have hsuccesses := h.sublist.count_le false
  have hfailures := h.sublist.count_le true
  rw [isSettled_eq_true_iff] at hsettled
  unfold isMet
  rw [decide_eq_decide]
  omega

end Ratio

namespace OutcomeWindow

variable {w : OutcomeWindow}

theorem Sound.successes_eq (h : w.Sound) : w.successes = w.outcomes.count false := by
  have hsum := List.count_true_add_count_false w.outcomes
  have hsize : w.size = w.outcomes.length := rfl
  rw [successes, h.failures_eq]
  omega

end OutcomeWindow

/-- How a half-open phase that is decided by these outcomes ends at a reading: enough of them are
successes, or too many are failures. -/
def Phase.afterTally (config : BreakerConfig) (now : UInt64) (outcomes : List Bool) : Phase :=
  if config.success.isMet outcomes then Breaker.freshClosed config else .opened now

namespace Circuit

variable {c : Circuit} {a : Act} {acts : List Act} {config : BreakerConfig} {w : OutcomeWindow}
  {failed : Bool} {inFlight p : Nat} {outcomes tally : List Bool}

/-! ## One act in a half-open phase -/

/-- A half-open phase has weighed all outcomes in its window and is not settled by them. -/
theorem isSettled_of_bounded (hbounded : (Phase.halfOpen w inFlight).Bounded config) :
    config.success.isSettled w.outcomes = false := by
  obtain ⟨hsound, -, hfew, htolerated⟩ := hbounded
  have htolerated' : w.failures ≤ config.success.capacity - config.success.threshold := htolerated
  rw [hsound.successes_eq] at hfew
  rw [hsound.failures_eq] at htolerated'
  rw [Bool.eq_false_iff, ne_eq, Ratio.isSettled_eq_true_iff]
  omega

/-- It has room for another outcome. -/
theorem push_of_bounded (hvalid : config.check = .ok ())
    (hbounded : (Phase.halfOpen w inFlight).Bounded config) (failed : Bool) :
    (w.push failed).Sound ∧ (w.push failed).outcomes = w.outcomes ++ [failed] ∧
      w.size < config.success.capacity := by
  obtain ⟨-, ⟨hst, hsc⟩, -⟩ := BreakerConfig.check_eq_ok_iff.mp hvalid
  obtain ⟨hsound, hcapacity, hfew, htolerated⟩ := hbounded
  have htolerated' : w.failures ≤ config.success.capacity - config.success.threshold := htolerated
  have hsum := hsound.successes_add_failures
  have hroom : w.size < config.success.capacity := by omega
  refine ⟨hsound.push (by omega) failed, ?_, hroom⟩
  rw [OutcomeWindow.outcomes_push, if_neg (by omega)]

/-- An outcome on a permit of a half-open phase is weighed together with those before it, and ends
the phase if they settle the matter. -/
theorem Numbered.step_of_recordIn_halfOpen (h : c.Numbered) (hfew : c.phases < Word.size)
    (hvalid : c.breaker.config.check = .ok ())
    (hbounded : (Phase.halfOpen w inFlight).Bounded c.breaker.config)
    (hphase : c.breaker.phase = .halfOpen w inFlight)
    (hrecord : c.recordIn c.phases a = some failed) :
    if c.breaker.config.success.isSettled (w.outcomes ++ [failed]) then
      (c.step a).breaker.phase =
          .afterTally c.breaker.config c.now (w.outcomes ++ [failed]) ∧
        (c.step a).phases = c.phases + 1
    else
      (∃ left, (c.step a).breaker.phase = .halfOpen (w.push failed) left) ∧
        (c.step a).phases = c.phases := by
  obtain ⟨k, t, rfl, hout, hthis⟩ := exists_of_recordIn hrecord
  have hmem := mem_of_out? hout
  have hgeneration := (h.generation_eq_iff hfew hmem).mpr hthis
  obtain ⟨-, ⟨hst, hsc⟩, -⟩ := BreakerConfig.check_eq_ok_iff.mp hvalid
  obtain ⟨hsound, houtcomes, hroom⟩ := push_of_bounded hvalid hbounded failed
  have hsum := hsound.successes_add_failures
  have hsize : (w.push failed).size = w.size + 1 := by
    rw [OutcomeWindow.size, houtcomes, List.length_append]
    rfl
  have heffect := effect_step c (.settle k (some failed))
  generalize c.step (.settle k (some failed)) = c' at heffect ⊢
  rw [← houtcomes, Phase.afterTally]
  simp only [Ratio.isSettled_eq_true_iff, Ratio.isMet, ← hsound.successes_eq, ← hsound.failures_eq,
    decide_eq_true_eq]
  cases heffect with
  | weighs _ _ _ hphase' hlow htolerated =>
      cases hphase.symm.trans hphase'
      have htolerated' : (w.push failed).failures ≤
        c.breaker.config.success.capacity - c.breaker.config.success.threshold := htolerated
      rw [if_neg (by omega), breaker_giveBack, phases_giveBack]
      exact ⟨⟨_, rfl⟩, rfl⟩
  | recovers _ _ _ hphase' henough =>
      cases hphase.symm.trans hphase'
      rw [if_pos (.inl henough), if_pos henough, breaker_giveBack, phases_giveBack]
      exact ⟨rfl, rfl⟩
  | relapses _ _ _ hphase' htoo =>
      cases hphase.symm.trans hphase'
      have htoo' : c.breaker.config.success.capacity - c.breaker.config.success.threshold <
        (w.push failed).failures := htoo
      -- So many failures leave no room for enough successes beside them.
      rw [if_pos (.inr htoo'), if_neg (by omega), breaker_giveBack, phases_giveBack]
      exact ⟨rfl, rfl⟩
  -- The permit is out, of this phase, and the phase is half-open.
  | missing _ _ hnone => cases hout.symm.trans hnone
  | late _ _ hout' hother =>
      cases hout.symm.trans hout'
      exact absurd hgeneration hother
  | idle _ _ _ hphase' | counts _ _ _ hphase' | trips _ _ _ hphase' =>
      cases hphase.symm.trans hphase'

/-- Nothing else but a reset ends a half-open phase or changes its window. -/
theorem Numbered.step_of_recordIn_halfOpen_none (h : c.Numbered) (hfew : c.phases < Word.size)
    (hphase : c.breaker.phase = .halfOpen w inFlight) (hrecord : c.recordIn c.phases a = none)
    (hreset : a ≠ .reset) :
    (∃ left, (c.step a).breaker.phase = .halfOpen w left) ∧ (c.step a).phases = c.phases := by
  have heffect := effect_step c a
  generalize c.step a = c' at heffect
  cases heffect with
  | clock | looks | missing | full => exact ⟨⟨inFlight, hphase⟩, rfl⟩
  | probes _ hphase' =>
      cases hphase.symm.trans hphase'
      exact ⟨⟨_, rfl⟩, rfl⟩
  | resets => exact absurd rfl hreset
  | late => exact ⟨⟨inFlight, by rw [breaker_giveBack]; exact hphase⟩, phases_giveBack ..⟩
  | frees _ _ _ hphase' =>
      cases hphase.symm.trans hphase'
      exact ⟨⟨_, by rw [breaker_giveBack]; rfl⟩, phases_giveBack ..⟩
  | weighs _ hout hgeneration | recovers _ hout hgeneration | relapses _ hout hgeneration =>
      have hmem := mem_of_out? hout
      rw [recordIn_of_out hout, if_pos ((h.generation_eq_iff hfew hmem).mp hgeneration)] at hrecord
      cases hrecord
  | idle _ _ _ hphase' | stirs _ hphase' | wakes hphase' | rejects _ hphase' | admits _ hphase'
  | forgets _ _ hphase' | counts _ _ _ hphase' | trips _ _ _ hphase' =>
      cases hphase.symm.trans hphase'

/-- A half-open phase that goes on was half-open. -/
theorem exists_of_continues_halfOpen {phase : Phase} (h : phase.Continues (.halfOpen w inFlight)) :
    ∃ before slots, phase = .halfOpen before slots := by
  cases phase with
  | halfOpen before slots => exact ⟨before, slots, rfl⟩
  | closed before | opened since => cases h

/-! ## Runs -/

/-- The window of a half-open phase holds all outcomes that were recorded on its permits. -/
theorem outcomes_of_halfOpen (hvalid : config.check = .ok ()) (now : UInt64) (acts : List Act)
    (hfew : ((start config now).run acts).phases < Word.size)
    (hphase : ((start config now).run acts).breaker.phase = .halfOpen w inFlight) :
    w.outcomes = (start config now).recordsIn ((start config now).run acts).phases acts := by
  refine outcomes_induction
    (P := fun phase outcomes => ∀ w slots, phase = .halfOpen w slots → w.outcomes = outcomes)
    hvalid now ?_ ?_ acts hfew w inFlight hphase
  · intro phase hempty w slots hhalfOpen
    exact hempty w (by rw [hhalfOpen]; rfl)
  · intro d a outcomes hnumbered hhere hconfig hbounded hgoes ih w slots hthen
    subst hconfig
    have hcontinues := hgoes.continues
    rw [hthen] at hcontinues
    obtain ⟨before, slots', hbefore⟩ := exists_of_continues_halfOpen hcontinues
    rw [hbefore] at hbounded
    cases hrecord : d.recordIn d.phases a with
    | some failed =>
        have hstep := hnumbered.step_of_recordIn_halfOpen hhere hvalid hbounded hbefore hrecord
        split at hstep
        · exact absurd (hgoes.phases.symm.trans hstep.2) (Nat.ne_of_lt (Nat.lt_succ_self _))
        · obtain ⟨⟨left, hpushed⟩, -⟩ := hstep
          cases hthen.symm.trans hpushed
          rw [(push_of_bounded hvalid hbounded failed).2.1, ih before slots' hbefore]
          rfl
    | none =>
        have hreset : a ≠ .reset := by
          rintro rfl
          exact Nat.succ_ne_self d.phases hgoes.phases
        obtain ⟨⟨left, hsame⟩, -⟩ :=
          hnumbered.step_of_recordIn_halfOpen_none hhere hbefore hrecord hreset
        cases hthen.symm.trans hsame
        rw [Option.toList_none, List.append_nil]
        exact ih w slots' hbefore

/-- The circuit is in a half-open phase of this number, which the outcomes on its permits so far
do not settle. -/
structure Probing (c : Circuit) (p : Nat) (outcomes : List Bool) : Prop where
  phases : c.phases = p
  halfOpen : c.breaker.phase.kind = .halfOpen
  unsettled : c.breaker.config.success.isSettled outcomes = false

/-- The act records the outcome that settles a half-open phase, which ends with it. -/
structure Decides (c : Circuit) (p : Nat) (outcomes : List Bool) (a : Act) (failed : Bool) :
    Prop where
  probing : c.Probing p outcomes
  recordIn : c.recordIn p a = some failed
  settled : c.breaker.config.success.isSettled (outcomes ++ [failed]) = true
  phases : (c.step a).phases = p + 1
  phase : (c.step a).breaker.phase =
    .afterTally c.breaker.config c.now (outcomes ++ [failed])

/-- A half-open phase of a run is not settled by its outcomes. -/
theorem probing_run (hvalid : config.check = .ok ()) (now : UInt64) (acts : List Act)
    (hfew : ((start config now).run acts).phases < Word.size)
    (hphase : ((start config now).run acts).breaker.phase.kind = .halfOpen) :
    ((start config now).run acts).Probing ((start config now).run acts).phases
      ((start config now).recordsIn ((start config now).run acts).phases acts) := by
  have hconfig : ((start config now).run acts).breaker.config = config := config_run _ acts
  have hbounded := bounded_run (c := start config now) hvalid (bounded_freshClosed hvalid) acts
  obtain ⟨w, inFlight, hhalfOpen⟩ := Phase.exists_of_kind_halfOpen hphase
  have houtcomes := outcomes_of_halfOpen hvalid now acts hfew hhalfOpen
  rw [hhalfOpen] at hbounded
  refine ⟨rfl, hphase, ?_⟩
  rw [hconfig, ← houtcomes]
  exact isSettled_of_bounded hbounded

/-- An act in a half-open phase that does not reset leaves the phase probing or decides it. -/
theorem probing_or_decides (hvalid : config.check = .ok ()) (now : UInt64) (acts : List Act)
    (hfew : ((start config now).run acts).phases < Word.size)
    (hprobing : ((start config now).run acts).Probing p ((start config now).recordsIn p acts))
    (hreset : a ≠ .reset) :
    ((start config now).run (acts ++ [a])).Probing p
        ((start config now).recordsIn p (acts ++ [a])) ∨
      ∃ failed, ((start config now).run acts).Decides p ((start config now).recordsIn p acts)
        a failed := by
  have hnumbered : ((start config now).run acts).Numbered :=
    numbered_run (numbered_start config now) acts
  have hbounded := bounded_run (c := start config now) hvalid (bounded_freshClosed hvalid) acts
  have hconfig : ((start config now).run acts).breaker.config = config := config_run _ acts
  obtain ⟨w, inFlight, hhalfOpen⟩ := Phase.exists_of_kind_halfOpen hprobing.halfOpen
  have houtcomes := outcomes_of_halfOpen hvalid now acts hfew hhalfOpen
  rw [hprobing.phases] at houtcomes
  obtain rfl := hprobing.phases
  rw [run_concat, recordsIn_concat, ← houtcomes]
  rw [← houtcomes] at hprobing
  generalize (start config now).run acts = c at *
  rw [hhalfOpen] at hbounded
  have hconfig' := (effect_step c a).config_eq
  cases hrecord : c.recordIn c.phases a with
  | some failed =>
      have hstep := hnumbered.step_of_recordIn_halfOpen hfew (hconfig ▸ hvalid) (hconfig ▸ hbounded)
        hhalfOpen hrecord
      split at hstep
      · next hsettled => exact .inr ⟨failed, hprobing, hrecord, hsettled, hstep.2, hstep.1⟩
      · next hunsettled =>
        obtain ⟨⟨left, hpushed⟩, hphases⟩ := hstep
        refine .inl ⟨hphases, by rw [hpushed]; rfl, ?_⟩
        rw [hconfig']
        exact Bool.eq_false_iff.mpr hunsettled
  | none =>
      obtain ⟨⟨left, hsame⟩, hphases⟩ :=
        hnumbered.step_of_recordIn_halfOpen_none hfew hhalfOpen hrecord hreset
      refine .inl ⟨hphases, by rw [hsame]; rfl, ?_⟩
      rw [hconfig', Option.toList_none, List.append_nil]
      exact hprobing.unsettled

/-- A half-open phase that is not reset goes on until an outcome decides it. -/
theorem probing_run_or_decides (hvalid : config.check = .ok ()) (now : UInt64)
    (before after : List Act)
    (hfew : ((start config now).run (before ++ after)).phases < Word.size)
    (hprobing : ((start config now).run before).Probing p ((start config now).recordsIn p before))
    (hreset : ∀ m ∈ ((start config now).run before).trace after, m.1.phases = p → m.2 ≠ .reset) :
    ((start config now).run (before ++ after)).Probing p
        ((start config now).recordsIn p (before ++ after)) ∨
      ∃ first a later failed, after = first ++ a :: later ∧
        ((start config now).run (before ++ first)).Decides p
          ((start config now).recordsIn p (before ++ first)) a failed := by
  -- Induction on what comes after: the phase probes until its last act, or was decided before.
  induction after using List.reverseRecOn with
  | nil =>
      rw [List.append_nil]
      exact .inl hprobing
  | append_singleton after a ih =>
      rw [trace_append] at hreset
      rw [← List.append_assoc] at hfew ⊢
      have hhere : ((start config now).run (before ++ after)).phases < Word.size := by
        rw [run_concat] at hfew
        exact Nat.lt_of_le_of_lt (effect_step _ a).phases_le hfew
      rcases ih hhere fun m hm => hreset m (List.mem_append_left _ hm) with
        hgoes | ⟨first, b, later, failed, rfl, hdecides⟩
      · have hlast := hreset (((start config now).run before).run after, a)
          (List.mem_append_right _ (List.mem_singleton.mpr rfl))
        rw [run, run, ← List.foldl_append] at hlast
        rcases probing_or_decides hvalid now _ hhere hgoes (hlast hgoes.phases) with
          hstill | ⟨failed, hdecides⟩
        · exact .inl hstill
        · exact .inr ⟨after, a, [], failed, rfl, hdecides⟩
      · exact .inr ⟨first, b, later ++ [a], failed, by simp, hdecides⟩

/-- The outcome that decides a half-open phase is the first one that settles the matter, and the
phase ends as the full tally says. -/
theorem Decides.of_tally (hdecides : c.Decides p outcomes a failed)
    (hconfig : c.breaker.config = config)
    (hvalid : config.success.threshold ≤ config.success.capacity)
    (hfull : tally.length = config.success.capacity) (hfed : outcomes ++ [failed] <+: tally)
    {j : Nat} (hsettled : config.success.isSettled (tally.take j) = true)
    (hleast : ∀ i < j, config.success.isSettled (tally.take i) = false) :
    j = outcomes.length + 1 ∧ outcomes = tally.take (j - 1) ∧ outcomes ++ [failed] = tally.take j ∧
      (c.step a).breaker.phase =
        if config.success.threshold ≤ tally.count false then Breaker.freshClosed config
        else .opened c.now := by
  subst hconfig
  have hpushed : outcomes ++ [failed] = tally.take (outcomes.length + 1) := by
    rw [List.prefix_iff_eq_take.mp hfed, List.length_append, List.length_singleton]
  have hbefore : outcomes = tally.take outcomes.length :=
    List.prefix_iff_eq_take.mp ((List.prefix_append _ _).trans hfed)
  have hj : j = outcomes.length + 1 := by
    refine Nat.le_antisymm (Nat.not_lt.mp fun hlater => ?_) (Nat.not_le.mp fun hearlier => ?_)
    · have hnot := hleast _ hlater
      rw [← hpushed, hdecides.settled] at hnot
      cases hnot
    · -- What settles the matter would be among the outcomes that do not.
      have hsub : tally.take j <+: outcomes := hbefore ▸ List.take_prefix_take_left hearlier
      have hyes := Ratio.isSettled_of_prefix hsub hsettled
      rw [hdecides.probing.unsettled] at hyes
      cases hyes
  subst hj
  refine ⟨rfl, hbefore, hpushed, ?_⟩
  rw [hdecides.phase, Phase.afterTally,
    Ratio.isMet_of_settled hvalid hfull hfed hdecides.settled, Ratio.isMet]
  simp only [decide_eq_true_eq]

/-- A half-open phase decides as its full tally does, at the first outcome that settles the matter.
Let the outcomes that are recorded on the permits of the phase be the first ones of a tally,
in its order, as many as the capacity counts, and let nobody reset the phase.  Then the phase
goes on as long as too few of them are recorded to settle the matter; the next one ends it, at the
latest the last one of the tally, and the breaker closes exactly if enough of the whole tally
are successes. -/
theorem halfOpen_phase_tallies (config : BreakerConfig) (hvalid : config.check = .ok ())
    (now : UInt64) (before after : List Act) (tally : List Bool)
    (hfull : tally.length = config.success.capacity)
    (hfew : ((start config now).run (before ++ after)).phases < Word.size) :
    let c₀ := start config now
    let p := (c₀.run before).phases
    let fed := c₀.recordsIn p (before ++ after)
    (c₀.run before).breaker.phase.kind = .halfOpen → fed <+: tally →
    (∀ m ∈ (c₀.run before).trace after, m.1.phases = p → m.2 ≠ .reset) →
    ∃ j ≤ config.success.capacity,
      (config.success.isSettled (tally.take j) = true ∧
        ∀ i < j, config.success.isSettled (tally.take i) = false) ∧
      (fed.length < j → (c₀.run (before ++ after)).phases = p ∧
        (c₀.run (before ++ after)).breaker.phase.kind = .halfOpen) ∧
      (j ≤ fed.length → ∃ first a later, after = first ++ a :: later ∧
        ((c₀.run (before ++ first)).phases = p ∧
          (c₀.run (before ++ first)).breaker.phase.kind = .halfOpen ∧
          c₀.recordsIn p (before ++ first) = tally.take (j - 1)) ∧
        c₀.recordsIn p (before ++ first ++ [a]) = tally.take j ∧
        (c₀.run (before ++ first ++ [a])).phases = p + 1 ∧
        (c₀.run (before ++ first ++ [a])).breaker.phase =
          if config.success.threshold ≤ tally.count false then
            .closed (.empty config.failure.capacity)
          else .opened (c₀.run (before ++ first)).now) := by
  intro c₀ p fed hphase hfed hreset
  obtain ⟨-, ⟨-, hsc⟩, -⟩ := BreakerConfig.check_eq_ok_iff.mp hvalid
  have hbegun : p < Word.size := by
    have hle : p ≤ (c₀.run (before ++ after)).phases := by
      rw [run, List.foldl_append]
      exact phases_le_run (c₀.run before) after
    exact Nat.lt_of_le_of_lt hle hfew
  have hprobing := probing_run hvalid now before hbegun hphase
  obtain ⟨j, hj, hsettled, hleast⟩ := Ratio.exists_least_settled hsc hfull
  refine ⟨j, hj, ⟨hsettled, hleast⟩, ?_⟩
  rcases probing_run_or_decides hvalid now before after hfew hprobing hreset with
    hgoes | ⟨first, a, later, failed, rfl, hdecides⟩
  · refine ⟨fun _ => ⟨hgoes.phases, hgoes.halfOpen⟩, fun hmany => ?_⟩
    have hsub : tally.take j <+: fed := by
      rw [List.prefix_iff_eq_take.mp hfed]
      exact List.take_prefix_take_left hmany
    have hyes := Ratio.isSettled_of_prefix hsub hsettled
    have hno := hgoes.unsettled
    rw [config_run] at hno
    cases hyes.symm.trans hno
  · have hrecords : c₀.recordsIn p (before ++ first ++ [a]) =
        c₀.recordsIn p (before ++ first) ++ [failed] := by
      rw [recordsIn_concat, hdecides.recordIn]
      rfl
    have hhere : c₀.recordsIn p (before ++ first) ++ [failed] <+: fed := by
      have hsplit : before ++ first ++ [a] ++ later = before ++ (first ++ a :: later) := by simp
      rw [← hrecords]
      show _ <+: c₀.recordsIn p (before ++ (first ++ a :: later))
      rw [← hsplit, recordsIn_append c₀ p (before ++ first ++ [a])]
      exact List.prefix_append ..
    have hconfig : (c₀.run (before ++ first)).breaker.config = config := config_run ..
    obtain ⟨hlast, hbefore, hpushed, hends⟩ := hdecides.of_tally hconfig hsc hfull
      (hhere.trans hfed) hsettled hleast
    have hprobing := hdecides.probing
    refine ⟨fun hless => ?_, fun _ => ⟨first, a, later, rfl,
      ⟨hprobing.phases, hprobing.halfOpen, hbefore⟩, hrecords.trans hpushed, ?_, ?_⟩⟩
    · have hlength := hhere.length_le
      rw [List.length_append, List.length_singleton] at hlength
      rw [hlast] at hless
      exact absurd hlength (Nat.not_le.mpr hless)
    · rw [run_concat]
      exact hdecides.phases
    · rw [run_concat]
      exact hends

/-- Two successes of three probes, the first of which fails.  A call of the closed phase fails
meanwhile and one probe is dropped; the last outcome closes the breaker. -/
theorem halfOpen_phase_tallies_two_of_three :
    let config : BreakerConfig := ⟨⟨1, 1⟩, ⟨2, 3⟩, .ofSecs 1⟩
    let before : List Act :=
      [.acquire, .acquire, .settle 0 (some true), .setClock 1000, .acquire]
    let after : List Act := [.acquire, .acquire, .settle 1 (some true), .settle 3 (some true),
      .settle 4 none, .settle 2 (some false), .acquire, .settle 5 (some false)]
    config.check = .ok () ∧
      ((start config 0).run (before ++ after)).phases < Word.size ∧
      ((start config 0).run before).breaker.phase.kind = .halfOpen ∧
      (start config 0).recordsIn ((start config 0).run before).phases (before ++ after) =
        [true, false, false] ∧
      ∃ first a later, after = first ++ a :: later ∧
        ((start config 0).run (before ++ first)).breaker.phase.kind = .halfOpen ∧
        ((start config 0).run (before ++ first ++ [a])).breaker.phase = .closed (.empty 1) := by
  intro config before after
  have hfew : ((start config 0).run (before ++ after)).phases < Word.size := by decide +kernel
  have hphase : ((start config 0).run before).breaker.phase.kind = .halfOpen := by decide +kernel
  have hfed : (start config 0).recordsIn ((start config 0).run before).phases (before ++ after) =
      [true, false, false] := by decide +kernel
  have hreset : ∀ m ∈ ((start config 0).run before).trace after,
      m.1.phases = ((start config 0).run before).phases → m.2 ≠ .reset := by decide +kernel
  obtain ⟨j, hj, -, -, hends⟩ := halfOpen_phase_tallies config rfl 0 before after
    [true, false, false] rfl hfew hphase (hfed ▸ List.prefix_rfl) hreset
  rw [hfed] at hends
  obtain ⟨first, a, later, hsplit, ⟨-, hhere, -⟩, -, -, hthen⟩ := hends hj
  exact ⟨rfl, hfew, hphase, hfed, first, a, later, hsplit, hhere, hthen⟩

end Circuit

end FlowControl
