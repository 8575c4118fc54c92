import FlowControl.Timeline

/-!
# What holds while a routine runs in virtual time

A routine in the foreground meets one timeline after another: at every question, at every
instant of a wait, and at its end.  What is due at the end of a wait is still waiting when
the routine goes on.

Time passes in steps: everything that is due goes on, then time moves, at most to the next
instant at which something is due.  A property is kept while time passes if it is kept by
both, and along a routine if it is kept at each question.
-/

namespace FlowControl.Timeline

variable {I : Interface} {σ α β : Type} {S : Surroundings I σ} {t met : Timeline I σ}

/-! ## What is due -/

theorem settle_of_idle (hqueue : t.queue = []) : t.settle S = t := by
  obtain ⟨now, world, queue⟩ := t
  cases hqueue
  cases hplaces : S.keepsPlaces <;> simp [settle, advanceAll, requeue, hplaces]

/-- An alarm that is not due waits on. -/
theorem settle_of_early {wake : Nat} (hqueue : t.queue = [.alarm wake]) (hearly : t.now < wake) :
    t.settle S = t := by
  obtain ⟨now, world, queue⟩ := t
  cases hqueue
  have hnot : ¬ wake ≤ now := Nat.not_le.mpr hearly
  cases hplaces : S.keepsPlaces <;>
    simp [settle, advanceAll, Item.wake?, requeue, hplaces, hnot]

/-- An alarm that is due rings, and may be set again. -/
theorem settle_of_due {wake : Nat} (hqueue : t.queue = [.alarm wake]) (hdue : wake ≤ t.now) :
    t.settle S = { t with
      world := (S.ring t.now t.world).1
      queue := ((S.ring t.now t.world).2.map Item.alarm).toList } := by
  obtain ⟨now, world, queue⟩ := t
  cases hqueue
  cases hplaces : S.keepsPlaces <;> cases hnext : (S.ring now world).2 <;>
    simp_all [settle, advanceAll, Item.wake?, Item.advance, requeue]

/-! ## Time passes -/

theorem now_passTo (S : Surroundings I σ) (target : Nat) (t : Timeline I σ) :
    (t.passTo S target).now = target := by
  fun_induction passTo S target t with
  | case1 => rfl
  | case2 t settled wake hnext hwithin ih => exact ih
  | case3 => rfl

/-- What becomes of a timeline when all that is due goes on, and when time then moves to no later
than the next due instant, becomes of it when time passes. -/
theorem passTo_keeps (before after : Timeline I σ → Prop)
    (hsettle : ∀ t, before t → after (t.settle S))
    (hmove : ∀ t instant, after t → t.now < instant →
      (∀ wake ∈ nextWake? t.queue, t.now < wake → instant ≤ wake) →
        before { t with now := instant })
    {target : Nat} (hlater : t.now < target) (ht : before t) : before (t.passTo S target) := by
  fun_induction passTo S target t with
  | case1 t settled hnone =>
    refine hmove settled target (hsettle t ht) hlater fun wake hwake => ?_
    rw [hnone] at hwake
    cases hwake
  | case2 t settled wake hnext hwithin ih =>
    refine ih hwithin.2 (hmove settled wake (hsettle t ht) hwithin.1 fun other hother _ => ?_)
    rw [hnext] at hother
    cases hother
    exact Nat.le_refl _
  | case3 t settled wake hnext hbeyond =>
    refine hmove settled target (hsettle t ht) hlater fun other hother hahead => ?_
    rw [hnext] at hother
    cases hother
    exact Nat.le_of_not_lt fun hwithin => hbeyond ⟨hahead, hwithin⟩

/-! ## Questions in the foreground -/

/-- The world after a question was asked, before its answer comes. -/
def asked (S : Surroundings I σ) (r : I.Request) (t : Timeline I σ) : Timeline I σ :=
  { t with world := (S.start r t.now t.world).world }

/-- The answer to a question that is asked in the foreground, and the timeline when it comes. -/
def answered (S : Surroundings I σ) (r : I.Request) (t : Timeline I σ) :
    I.Answer r × Timeline I σ :=
  let timed := S.start r t.now t.world
  let t := if timed.ticks = 0 then t.asked S r else (t.asked S r).passTo S (t.now + timed.ticks)
  let (a, world) := timed.finish t.now t.world
  (a, { t with world })

/-- A question in the foreground is answered, and the routine goes on. -/
theorem run_ask (r : I.Request) (held : List I.Held) (resume : I.Answer r → Routine I α) :
    t.run S (.ask r held resume) = (t.answered S r).2.run S (resume (t.answered S r).1) := rfl

/-- A routine runs before what follows it. -/
theorem run_bind (p : Routine I α) (next : α → Routine I β) (t : Timeline I σ) :
    t.run S (p.bind next) = (t.run S p).2.run S (next (t.run S p).1) := by
  induction p generalizing t with
  | done a => rfl
  | ask r held resume ih =>
    rw [Routine.ask_bind, run_ask, run_ask]
    exact ih _ _

/-- A routine that runs in the foreground meets a timeline: where it stands, at an instant of a
wait, or later. -/
inductive Meets (S : Surroundings I σ) : Routine I α → Timeline I σ → Timeline I σ → Prop where
  | here (p : Routine I α) (t : Timeline I σ) : Meets S p t t
  | waiting {t : Timeline I σ} {r : I.Request} (held : List I.Held)
      (resume : I.Answer r → Routine I α) {instant : Nat} (hafter : t.now < instant)
      (hbefore : instant ≤ t.now + (S.start r t.now t.world).ticks) :
      Meets S (.ask r held resume) t ((t.asked S r).passTo S instant)
  | later {t met : Timeline I σ} {r : I.Request} (held : List I.Held)
      {resume : I.Answer r → Routine I α}
      (hmeets : Meets S (resume (t.answered S r).1) (t.answered S r).2 met) :
      Meets S (.ask r held resume) t met

theorem Meets.of_done {a : α} (h : Meets S (.done a) t met) : met = t := by
  cases h with
  | here => rfl

/-- Nothing is met between a question and an answer that comes at once. -/
theorem Meets.of_immediate {r : I.Request} {held : List I.Held}
    {resume : I.Answer r → Routine I α} (h : Meets S (.ask r held resume) t met)
    (hticks : (S.start r t.now t.world).ticks = 0) :
    met = t ∨ Meets S (resume (t.answered S r).1) (t.answered S r).2 met := by
  cases h with
  | here => exact .inl rfl
  | waiting _ _ hafter hbefore =>
    rw [hticks] at hbefore
    exact absurd hafter (Nat.not_lt.mpr hbefore)
  | later _ hmeets => exact .inr hmeets

/-- A routine and what follows it meet what either of them meets. -/
theorem Meets.of_bind {p : Routine I α} {next : α → Routine I β}
    (h : Meets S (p.bind next) t met) :
    Meets S p t met ∨ Meets S (next (t.run S p).1) (t.run S p).2 met := by
  induction p generalizing t with
  | done a => exact .inr h
  | ask r held resume ih =>
    cases h with
    | here => exact .inl (.here _ _)
    | waiting _ _ hafter hbefore => exact .inl (.waiting held resume hafter hbefore)
    | later _ hmeets => exact (ih _ hmeets).imp_left (.later held)

end FlowControl.Timeline
