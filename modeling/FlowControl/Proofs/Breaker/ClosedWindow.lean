import FlowControl.Proofs.Breaker.LatePermits
import FlowControl.Proofs.Breaker.Phases
import FlowControl.Proofs.Breaker.WindowBounds
import Mathlib.Data.List.DropRight
import Mathlib.Data.List.Induction

/-!
# What opens a closed breaker

The outcomes of a phase are those that are recorded on the permits it issued, in the order of
recording, however many permits are out at once and however many are dropped.  A closed phase
decides by the last of them alone, as many as its capacity counts: its window consists of
these, and the breaker opens at the first outcome with which enough of these are failures.

The window is kept by pushing outcomes and counting failures up and down.  Against the outcomes it
is what is left of all of them when the older ones are dropped.
-/

namespace FlowControl

/-- Are enough of the last outcomes failures? -/
def Ratio.isReached (r : Ratio) (outcomes : List Bool) : Bool :=
  decide (r.threshold ≤ (outcomes.rtake r.capacity).count true)

namespace OutcomeWindow

variable {w : OutcomeWindow} {outcomes : List Bool}

/-- A window that holds the last of some outcomes holds the last of them after one more. -/
theorem outcomes_push_rtake (hcapacity : 0 < w.capacity)
    (h : w.outcomes = outcomes.rtake w.capacity) (failed : Bool) :
    (w.push failed).outcomes = (outcomes ++ [failed]).rtake w.capacity := by
  obtain ⟨n, hn⟩ := Nat.exists_eq_succ_of_ne_zero (Nat.ne_of_gt hcapacity)
  have hsize : w.size = min (n + 1) outcomes.length := by
    rw [size, h, hn, List.rtake, List.length_drop]
    omega
  rw [outcomes_push, hsize, h, hn, List.rtake_concat_succ]
  congr 1
  unfold List.rtake
  by_cases hfull : n + 1 ≤ outcomes.length
  · rw [if_pos (Nat.min_eq_left hfull), List.drop_drop]
    congr 1
    omega
  · have hroom : outcomes.length ≤ n := Nat.le_of_lt_succ (Nat.not_le.mp hfull)
    rw [if_neg (by omega), Nat.sub_eq_zero_of_le hroom,
      Nat.sub_eq_zero_of_le (Nat.le_succ_of_le hroom)]

/-- Such a window has enough failures exactly if enough of the last outcomes are failures. -/
theorem Sound.isReached_iff {r : Ratio} (h : w.Sound)
    (hrtake : w.outcomes = outcomes.rtake r.capacity) :
    r.isReached outcomes = true ↔ r.threshold ≤ w.failures := by
  rw [Ratio.isReached, decide_eq_true_iff, h.failures_eq, hrtake]

end OutcomeWindow

namespace Circuit

variable {c : Circuit} {a : Act} {acts : List Act} {config : BreakerConfig} {w : OutcomeWindow}
  {failed : Bool} {k p : Nat} {t : Ticket}

/-- The outcome that an act records on a permit of a phase. -/
def recordIn (c : Circuit) (p : Nat) : Act → Option Bool
  | .settle k (some failed) => if (c.out? k).any (·.phase == p) then some failed else none
  | _ => none

/-- The outcomes that are recorded on the permits of a phase, in their order. -/
def recordsIn (c : Circuit) (p : Nat) (acts : List Act) : List Bool :=
  (c.trace acts).filterMap fun m => m.1.recordIn p m.2

/-! ## One act in a closed phase -/

theorem recordIn_of_out (hout : c.out? k = some t) (p : Nat) (failed : Bool) :
    c.recordIn p (.settle k (some failed)) = if t.phase = p then some failed else none := by
  simp [recordIn, hout]

theorem exists_of_recordIn (hrecord : c.recordIn p a = some failed) :
    ∃ k t, a = .settle k (some failed) ∧ c.out? k = some t ∧ t.phase = p := by
  cases a with
  | settle k outcome =>
      cases outcome with
      | some failed' =>
          cases hout : c.out? k with
          | some t =>
              rw [recordIn_of_out hout] at hrecord
              split at hrecord
              · next hthis =>
                cases hrecord
                exact ⟨k, t, rfl, hout, hthis⟩
              · cases hrecord
          | none => simp [recordIn, hout] at hrecord
      | none => cases hrecord
  | acquire | observe | reset | setClock reading => cases hrecord

/-- An outcome on a permit of a closed phase is pushed into its window, and opens the breaker if it
makes enough failures. -/
theorem Numbered.step_of_recordIn (h : c.Numbered) (hfew : c.phases < Word.size)
    (hphase : c.breaker.phase = .closed w) (hrecord : c.recordIn c.phases a = some failed) :
    if c.breaker.config.failure.threshold ≤ (w.push failed).failures then
      (c.step a).breaker.phase = .opened c.now ∧ (c.step a).phases = c.phases + 1
    else
      (c.step a).breaker.phase = .closed (w.push failed) ∧ (c.step a).phases = c.phases := by
  obtain ⟨k, t, rfl, hout, hthis⟩ := exists_of_recordIn hrecord
  have hmem := mem_of_out? hout
  have hgeneration := (h.generation_eq_iff hfew hmem).mpr hthis
  have heffect := effect_step c (.settle k (some failed))
  generalize c.step (.settle k (some failed)) = c' at heffect ⊢
  cases heffect with
  | counts _ _ _ hphase' hlow =>
      cases hphase.symm.trans hphase'
      rw [if_neg (Nat.not_le.mpr hlow), breaker_giveBack, phases_giveBack]
      exact ⟨rfl, rfl⟩
  | trips _ _ _ hphase' hhigh =>
      cases hphase.symm.trans hphase'
      rw [if_pos hhigh, breaker_giveBack, phases_giveBack]
      exact ⟨rfl, rfl⟩
  -- The permit is out, of this phase, and the phase is closed.
  | missing _ _ hnone => cases hout.symm.trans hnone
  | late _ _ hout' hother =>
      cases hout.symm.trans hout'
      exact absurd hgeneration hother
  | idle _ _ _ hphase' | weighs _ _ _ hphase' | recovers _ _ _ hphase' | relapses _ _ _ hphase' =>
      cases hphase.symm.trans hphase'

/-- Nothing else but a reset touches a closed phase. -/
theorem Numbered.step_of_recordIn_none (h : c.Numbered) (hfew : c.phases < Word.size)
    (hphase : c.breaker.phase = .closed w) (hrecord : c.recordIn c.phases a = none)
    (hreset : a ≠ .reset) :
    (c.step a).breaker.phase = .closed w ∧ (c.step a).phases = c.phases := by
  have heffect := effect_step c a
  generalize c.step a = c' at heffect
  cases heffect with
  | clock | looks | missing | admits => exact ⟨hphase, rfl⟩
  | resets => exact absurd rfl hreset
  | late | forgets => exact ⟨by rw [breaker_giveBack]; exact hphase, phases_giveBack ..⟩
  | counts _ hout hgeneration | trips _ hout hgeneration =>
      have hmem := mem_of_out? hout
      rw [recordIn_of_out hout, if_pos ((h.generation_eq_iff hfew hmem).mp hgeneration)] at hrecord
      cases hrecord
  | idle _ _ _ hphase' | stirs _ hphase' | wakes hphase' | rejects _ hphase' | full _ hphase'
  | probes _ hphase' | frees _ _ _ hphase' | weighs _ _ _ hphase' | recovers _ _ _ hphase'
  | relapses _ _ _ hphase' => cases hphase.symm.trans hphase'

/-! ## Runs -/

theorem run_concat (c : Circuit) (acts : List Act) (a : Act) :
    c.run (acts ++ [a]) = (c.run acts).step a := List.foldl_concat ..

theorem trace_append (c : Circuit) (acts later : List Act) :
    c.trace (acts ++ later) = c.trace acts ++ (c.run acts).trace later := by
  induction acts generalizing c with
  | nil => rfl
  | cons a acts ih => exact congrArg ((c, a) :: ·) (ih (c.step a))

theorem recordsIn_append (c : Circuit) (p : Nat) (acts later : List Act) :
    c.recordsIn p (acts ++ later) = c.recordsIn p acts ++ (c.run acts).recordsIn p later := by
  unfold recordsIn
  rw [trace_append, List.filterMap_append]

theorem recordsIn_concat (c : Circuit) (p : Nat) (acts : List Act) (a : Act) :
    c.recordsIn p (acts ++ [a]) =
      c.recordsIn p acts ++ ((c.run acts).recordIn p a).toList := by
  rw [recordsIn_append]
  rfl

/-- No permit has been issued by a phase that has not begun. -/
theorem Numbered.recordIn_of_lt (h : c.Numbered) (hp : c.phases < p) (a : Act) :
    c.recordIn p a = none := by
  cases hrecord : c.recordIn p a with
  | none => rfl
  | some failed =>
      obtain ⟨k, t, -, hout, rfl⟩ := exists_of_recordIn hrecord
      have hmem := mem_of_out? hout
      exact absurd (h.phase_le t hmem) (Nat.not_le.mpr hp)

theorem Numbered.recordsIn_of_lt (h : c.Numbered) (hp : (c.run acts).phases < p) :
    c.recordsIn p acts = [] := by
  refine List.filterMap_eq_nil_iff.mpr fun m hm => ?_
  obtain ⟨hnumbered, hle⟩ := of_mem_trace h hm
  exact hnumbered.recordIn_of_lt (Nat.lt_of_le_of_lt hle hp) m.2

/-- A closed phase that goes on was closed. -/
theorem exists_of_continues {phase : Phase} (h : phase.Continues (.closed w)) :
    ∃ before, phase = .closed before := by
  cases phase with
  | closed before => exact ⟨before, rfl⟩
  | opened since | halfOpen window inFlight => cases h

/-- A phase begins without outcomes. -/
theorem outcomes_of_begins {c' : Circuit} {begun : Phase}
    (hnext : NextPhase config c.now c.breaker.phase a begun) (hbegins : Begins c a c' begun)
    (hwindow : c'.breaker.phase.window? = some w) : w.outcomes = [] := by
  have hempty : ∀ u, begun.window? = some u → u.outcomes = [] := by
    intro u hu
    generalize c.breaker.phase = before at hnext
    cases hnext with
    | trips window k failed | relapses window inFlight k failed => cases hu
    | recovers window inFlight k failed | wakes since _ ha hlate | resets phase =>
        cases hu
        rfl
  rcases hbegins.phase with hbegun | ⟨-, window, hslot, hhalfOpen, -⟩
  · rw [hbegun] at hwindow
    exact hempty w hwindow
  · -- The first slot is taken at once, which leaves the window alone.
    rw [hhalfOpen] at hwindow
    cases hwindow
    exact hempty w (by rw [hslot]; rfl)

/-- What holds of a phase and the outcomes recorded on its permits, when it has no outcomes and
whatever an act does while it goes on, holds throughout a run. -/
theorem outcomes_induction {P : Phase → List Bool → Prop} (hvalid : config.check = .ok ())
    (now : UInt64)
    (hbegun : ∀ phase : Phase, (∀ w, phase.window? = some w → w.outcomes = []) → P phase [])
    (hgoes : ∀ (d : Circuit) (a : Act) (outcomes : List Bool), d.Numbered →
      d.phases < Word.size → d.breaker.config = config → d.breaker.phase.Bounded config →
      GoesOn d (d.step a) → P d.breaker.phase outcomes →
      P (d.step a).breaker.phase (outcomes ++ (d.recordIn d.phases a).toList))
    (acts : List Act) (hfew : ((start config now).run acts).phases < Word.size) :
    P ((start config now).run acts).breaker.phase
      ((start config now).recordsIn ((start config now).run acts).phases acts) := by
  induction acts using List.reverseRecOn with
  | nil =>
      refine hbegun _ fun w hw => ?_
      cases hw
      rfl
  | append_singleton acts a ih =>
      have hstart : (start config now).Numbered := numbered_start config now
      have hnumbered : ((start config now).run acts).Numbered := numbered_run hstart acts
      have hconfig := config_run (start config now) acts
      have hbounded := bounded_run (c := start config now) hvalid (bounded_freshClosed hvalid) acts
      rw [run_concat] at hfew ⊢
      rw [recordsIn_concat]
      generalize hd : (start config now).run acts = d at *
      have hconfig' : d.breaker.config = config := hconfig
      have heffect := effect_step d a
      have hhere : d.phases < Word.size := Nat.lt_of_le_of_lt heffect.phases_le hfew
      rcases heffect.phase_cases (hconfig' ▸ hvalid) with hgoes' | ⟨begun, hnext, hbegins⟩
      · rw [hgoes'.phases]
        exact hgoes d a _ hnumbered hhere hconfig' hbounded hgoes' (ih hhere)
      · -- Another phase has begun, and no permit of it has been recorded on.
        have hnone : d.phases < (d.step a).phases := by
          rw [hbegins.phases]
          exact Nat.lt_succ_self _
        rw [hnumbered.recordIn_of_lt hnone, hstart.recordsIn_of_lt (by rw [hd]; exact hnone)]
        exact hbegun _ fun w hw => outcomes_of_begins hnext hbegins hw

/-- Does a window hold the last of some outcomes, and were there never enough failures among the
last ones so far? -/
structure Watches (config : BreakerConfig) (w : OutcomeWindow) (outcomes : List Bool) : Prop where
  outcomes_eq : w.outcomes = outcomes.rtake config.failure.capacity
  low : ∀ j ≤ outcomes.length, config.failure.isReached (outcomes.take j) = false

theorem watches_nil (hvalid : config.check = .ok ()) (hempty : w.outcomes = []) :
    Watches config w [] where
  outcomes_eq := by rw [hempty, List.rtake_nil]
  low j _ := by
    obtain ⟨⟨hpositive, -⟩, -⟩ := BreakerConfig.check_eq_ok_iff.mp hvalid
    rw [List.take_nil, Ratio.isReached, List.rtake_nil]
    exact decide_eq_false (Nat.not_le.mpr hpositive)

variable {outcomes : List Bool}

theorem Watches.outcomes_push (h : Watches config w outcomes)
    (hcapacity : w.capacity = config.failure.capacity) (hpositive : 0 < w.capacity)
    (failed : Bool) :
    (w.push failed).outcomes = (outcomes ++ [failed]).rtake config.failure.capacity := by
  rw [← hcapacity]
  exact OutcomeWindow.outcomes_push_rtake hpositive (hcapacity ▸ h.outcomes_eq) failed

/-- An outcome that leaves too few failures in the window is watched, too. -/
theorem Watches.push (h : Watches config w outcomes) (hsound : w.Sound)
    (hcapacity : w.capacity = config.failure.capacity) (hpositive : 0 < w.capacity)
    (hlow : (w.push failed).failures < config.failure.threshold) :
    Watches config (w.push failed) (outcomes ++ [failed]) := by
  have houtcomes := h.outcomes_push hcapacity hpositive failed
  refine ⟨houtcomes, fun j hj => ?_⟩
  rw [List.length_append, List.length_singleton] at hj
  by_cases hbefore : j ≤ outcomes.length
  · rw [List.take_append_of_le_length hbefore]
    exact h.low j hbefore
  · have hall : outcomes.length + 1 = j := by omega
    rw [List.take_of_length_le (by simp [hall]), Bool.eq_false_iff, ne_eq,
      (hsound.push hpositive failed).isReached_iff houtcomes]
    exact Nat.not_le.mpr hlow

/-- While a closed phase goes on, an outcome on one of its permits joins those before, and nothing
else is noticed. -/
theorem Watches.step (h : Watches c.breaker.config w outcomes) (hnumbered : c.Numbered)
    (hfew : c.phases < Word.size) (hvalid : c.breaker.config.check = .ok ())
    (hbounded : (Phase.closed w).Bounded c.breaker.config) (hphase : c.breaker.phase = .closed w)
    (hgoes : GoesOn c (c.step a)) {w' : OutcomeWindow}
    (hthen : (c.step a).breaker.phase = .closed w') :
    Watches c.breaker.config w' (outcomes ++ (c.recordIn c.phases a).toList) := by
  obtain ⟨⟨hft, hfc⟩, -⟩ := BreakerConfig.check_eq_ok_iff.mp hvalid
  obtain ⟨hsound, hcapacity, -⟩ := hbounded
  have hpositive : 0 < w.capacity := hcapacity ▸ Nat.lt_of_lt_of_le hft hfc
  cases hrecord : c.recordIn c.phases a with
  | some failed =>
      have hstep := hnumbered.step_of_recordIn hfew hphase hrecord
      split at hstep
      · cases hthen.symm.trans hstep.1
      · next hlow =>
        cases hthen.symm.trans hstep.1
        exact h.push hsound hcapacity hpositive (Nat.not_le.mp hlow)
  | none =>
      have hreset : a ≠ .reset := by
        rintro rfl
        exact Nat.succ_ne_self c.phases hgoes.phases
      cases (hnumbered.step_of_recordIn_none hfew hphase hrecord hreset).1.symm.trans hthen
      rw [Option.toList_none, List.append_nil]
      exact h

/-- A closed phase watches the outcomes that are recorded on its permits. -/
theorem watches_run (hvalid : config.check = .ok ()) (now : UInt64) (acts : List Act)
    (hfew : ((start config now).run acts).phases < Word.size)
    (hphase : ((start config now).run acts).breaker.phase = .closed w) :
    Watches config w
      ((start config now).recordsIn ((start config now).run acts).phases acts) := by
  refine outcomes_induction
    (P := fun phase outcomes => ∀ w, phase = .closed w → Watches config w outcomes)
    hvalid now ?_ ?_ acts hfew w hphase
  · intro phase hempty w hclosed
    exact watches_nil hvalid (hempty w (by rw [hclosed]; rfl))
  · intro d a outcomes hnumbered hhere hconfig hbounded hgoes ih w hclosed
    subst hconfig
    have hcontinues := hgoes.continues
    rw [hclosed] at hcontinues
    obtain ⟨before, hbefore⟩ := exists_of_continues hcontinues
    have hwindow : (Phase.closed before).Bounded d.breaker.config := hbefore ▸ hbounded
    exact (ih before hbefore).step hnumbered hhere hvalid hwindow hbefore hgoes hclosed

/-- A closed phase decides by its last outcomes.  As long as generations do not wrap around, its
window consists of the last outcomes that were recorded on its permits, as many as fit; no
outcome so far made enough of the last ones failures, and the breaker opens at the next one
exactly if that one does.  Nothing else ends the phase but a reset. -/
theorem closed_phase_decides (config : BreakerConfig) (hvalid : config.check = .ok ())
    (now : UInt64) (acts : List Act)
    (hfew : ((start config now).run acts).phases < Word.size) :
    let c := (start config now).run acts
    let outcomes := (start config now).recordsIn c.phases acts
    ∀ w, c.breaker.phase = .closed w →
      (w.outcomes = outcomes.rtake config.failure.capacity ∧ w.failures = w.outcomes.count true) ∧
      (∀ j ≤ outcomes.length, config.failure.isReached (outcomes.take j) = false) ∧
      (∀ a failed, c.recordIn c.phases a = some failed →
        (config.failure.isReached (outcomes ++ [failed]) = true →
          (c.step a).breaker.phase = .opened c.now ∧ (c.step a).phases = c.phases + 1) ∧
        (config.failure.isReached (outcomes ++ [failed]) = false →
          (c.step a).breaker.phase = .closed (w.push failed) ∧ (c.step a).phases = c.phases ∧
            (w.push failed).outcomes =
              (outcomes ++ [failed]).rtake config.failure.capacity)) ∧
      ∀ a, c.recordIn c.phases a = none → a ≠ .reset →
        (c.step a).breaker.phase = .closed w ∧ (c.step a).phases = c.phases := by
  intro c outcomes w hphase
  obtain ⟨⟨hft, hfc⟩, -⟩ := BreakerConfig.check_eq_ok_iff.mp hvalid
  have hnumbered : c.Numbered := numbered_run (numbered_start config now) acts
  have hconfig : c.breaker.config = config := config_run (start config now) acts
  have hwatches : Watches config w outcomes := watches_run hvalid now acts hfew hphase
  have hbounded : (Phase.closed w).Bounded config :=
    hphase ▸ bounded_run (c := start config now) hvalid (bounded_freshClosed hvalid) acts
  obtain ⟨hsound, hcapacity, -⟩ := hbounded
  have hpositive : 0 < w.capacity := hcapacity ▸ Nat.lt_of_lt_of_le hft hfc
  refine ⟨⟨hwatches.outcomes_eq, hsound.failures_eq⟩, hwatches.low, ?_, ?_⟩
  · intro a failed hrecord
    have hpush := hwatches.outcomes_push hcapacity hpositive failed
    have hstep := hnumbered.step_of_recordIn hfew hphase hrecord
    rw [hconfig] at hstep
    have hreached := (hsound.push hpositive failed).isReached_iff (r := config.failure) hpush
    constructor
    · intro hhigh
      rw [if_pos (hreached.mp hhigh)] at hstep
      exact hstep
    · intro hlow
      rw [if_neg (mt hreached.mpr (Bool.eq_false_iff.mp hlow))] at hstep
      exact ⟨hstep.1, hstep.2, hpush⟩
  · intro a hrecord hreset
    exact hnumbered.step_of_recordIn_none hfew hphase hrecord hreset

/-- Two failures of the last three, with six calls at once: the first failure has left the window
when the second one comes, and the third one opens the breaker. -/
theorem closed_phase_decides_two_of_three :
    let config : BreakerConfig := ⟨⟨2, 3⟩, ⟨1, 1⟩, .ofSecs 1⟩
    let acts : List Act := List.replicate 6 .acquire ++ [.settle 0 (some true),
      .settle 1 (some false), .settle 4 none, .settle 2 (some false), .settle 3 (some true)]
    config.check = .ok () ∧ ((start config 0).run acts).phases < Word.size ∧
      (start config 0).recordsIn ((start config 0).run acts).phases acts =
        [true, false, false, true] ∧
      ((start config 0).run acts).breaker.phase = .closed ⟨3, [false, false, true], 1⟩ ∧
      (((start config 0).run acts).step (.settle 5 (some true))).breaker.phase =
        .opened ((start config 0).run acts).now := by
  intro config acts
  have hfew : ((start config 0).run acts).phases < Word.size := by decide +kernel
  have hrecords : (start config 0).recordsIn ((start config 0).run acts).phases acts =
      [true, false, false, true] := by decide +kernel
  have hphase : ((start config 0).run acts).breaker.phase =
      .closed ⟨3, [false, false, true], 1⟩ := by decide +kernel
  have hrecord : ((start config 0).run acts).recordIn ((start config 0).run acts).phases
      (.settle 5 (some true)) = some true := by decide +kernel
  obtain ⟨-, -, hdecides, -⟩ := closed_phase_decides config rfl 0 acts hfew _ hphase
  obtain ⟨hopens, -⟩ := hdecides _ _ hrecord
  rw [hrecords] at hopens
  exact ⟨rfl, hfew, hrecords, hphase, (hopens rfl).1⟩

end Circuit

end FlowControl
