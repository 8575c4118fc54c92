import FlowControl.Proofs.Limiter.GateProgram
import FlowControl.Proofs.Limiter.Stays
import FlowControl.Proofs.Timeline
import FlowControl.Scenario.Limits

/-!
# Sweeps while time passes

Sweeps are set up for the multiples of a period.  What comes at the instant of a sweep may
come before it or after it; a sweep is ahead as long as it has not been let go on.

While time passes, and while a take runs, the registry stays what the accesses tell, up to
the next sweep.  The questions of a bucket or a lock leave the registry alone, however long
their answers take.
-/

namespace FlowControl.Scenario

open Registry (Held ofLimiter Reflects)

variable {α β : Type} {rules : LimitRules} {h : Handle} {period now wake tick : Nat} {swept : Bool}

/-! ## The times of sweeps -/

/-- Sweeps come at the multiples of a period in milliseconds that clocks can measure. -/
structure LimitRules.SweepsEvery (rules : LimitRules) (period : Nat) : Prop where
  interval : rules.sweepInterval = .ofMillis period
  pos : 0 < period
  measured : period < Duration.clockSecs * 1000

theorem LimitRules.SweepsEvery.nanos (hrules : rules.SweepsEvery period) :
    rules.sweepInterval.nanos = period * 1000000 := by
  have hmeasured := hrules.measured
  have hclock : Duration.clockSecs = 9223372036854775807 := rfl
  have hmax : Duration.maxNanos = 18446744073709551615999999999 := rfl
  rw [hrules.interval, Duration.ofMillis, Duration.nanos_ofNanos_of_le]
  omega

/-- The next sweep is the first multiple of the period that is later. -/
theorem LimitRules.SweepsEvery.nextSweep (hrules : rules.SweepsEvery period) (now : Nat) :
    rules.nextSweep now = (now / period + 1) * period := by
  have hmeasured := hrules.measured
  have hsecs : rules.sweepInterval.secs < Duration.clockSecs := by
    rw [Duration.secs, hrules.nanos]
    omega
  rw [LimitRules.nextSweep, if_pos hsecs, hrules.nanos, Nat.mul_div_mul_right _ _ (by decide),
    ← Nat.mul_assoc]
  omega

/-- Is a sweep still ahead?  That of the present instant is until it has been let go on. -/
def Ahead (tick now : Nat) (swept : Bool) : Prop := now < tick ∨ now = tick ∧ swept = false

instance (tick now : Nat) (swept : Bool) : Decidable (Ahead tick now swept) :=
  inferInstanceAs (Decidable (_ ∨ _))

/-- The next sweep to come is that of an instant. -/
structure Awaits (period : Nat) (swept : Bool) (now wake : Nat) : Prop where
  dvd : period ∣ wake
  pos : 0 < wake
  now_le : now ≤ wake
  le_add : wake ≤ now + period
  lt_of_swept : swept = true → now < wake
  lt_add : swept = false → now = 0 ∨ wake < now + period

namespace Awaits

theorem start (hperiod : 0 < period) : Awaits period false 0 period where
  dvd := Nat.dvd_refl _
  pos := hperiod
  now_le := Nat.zero_le _
  le_add := by omega
  lt_of_swept := nofun
  lt_add _ := .inl rfl

/-- After the sweep of the present instant the next one is a period later. -/
theorem rung (h : Awaits period swept wake wake) (hperiod : 0 < period) :
    Awaits period true wake (wake + period) where
  dvd := Nat.dvd_add h.dvd (Nat.dvd_refl _)
  pos := by omega
  now_le := Nat.le_add_right _ _
  le_add := Nat.le_refl _
  lt_of_swept _ := by omega
  lt_add := nofun

theorem early (h : Awaits period swept now wake) (hlt : now < wake) :
    Awaits period true now wake where
  dvd := h.dvd
  pos := h.pos
  now_le := h.now_le
  le_add := h.le_add
  lt_of_swept _ := hlt
  lt_add := nofun

/-- Time moves, at most to the next sweep. -/
theorem moved {instant : Nat} (h : Awaits period true now wake) (hlater : now < instant)
    (hle : instant ≤ wake) : Awaits period false instant wake where
  dvd := h.dvd
  pos := h.pos
  now_le := hle
  le_add := by
    have := h.le_add
    omega
  lt_of_swept := nofun
  lt_add _ := by
    have := h.le_add
    omega

/-- The sweeps that are ahead are those from the next one on. -/
theorem ahead_iff (h : Awaits period swept now wake) (htick : period ∣ tick) (hpos : 0 < tick) :
    Ahead tick now swept ↔ wake ≤ tick := by
  have hle := h.now_le
  have hnext := h.le_add
  constructor
  · intro hahead
    refine Nat.le_of_not_lt fun hpast => ?_
    have hgap := add_le_of_dvd_of_lt htick h.dvd hpast
    rcases hahead with hlt | ⟨rfl, hfresh⟩
    · omega
    · have := h.lt_add hfresh
      omega
  · intro hwake
    rcases Nat.lt_or_eq_of_le (Nat.le_trans hle hwake) with hlt | rfl
    · exact .inl hlt
    · refine .inr ⟨rfl, Bool.eq_false_iff.mpr fun hswept => ?_⟩
      have := h.lt_of_swept hswept
      omega

end Awaits

/-! ## Properties that time and the store leave alone -/

/-- A property of timelines is kept while time passes, and depends on the world only by the
registry. -/
structure Steady (rules : LimitRules)
    (keeps : Timeline (Gate.interface α) (LimitWorld α) → Prop) : Prop where
  world : ∀ t w, w.registry = t.world.registry → keeps t → keeps { t with world := w }
  passTo : ∀ t instant, t.now < instant → keeps t →
    keeps (t.passTo (rules.surroundings α) instant)

namespace LimitWorld

theorem registry_call (w : LimitWorld α) (rules : LimitRules) (now : Nat) (c : StoreCall) :
    (w.call rules now c).2.registry = w.registry := by
  unfold call
  split <;> rfl

/-- Questions of a bucket or a lock leave the registry alone when they are asked, -/
theorem registry_startLimiter (rules : LimitRules) (ask : Limiter.Ask) (now : Nat)
    (w : LimitWorld α) : (startLimiter rules ask now w).world.registry = w.registry := by
  cases ask <;> rfl

/-- and when they are answered. -/
theorem registry_finish (rules : LimitRules) (ask : Limiter.Ask) (now now' : Nat)
    (w w' : LimitWorld α) :
    ((startLimiter rules ask now w).finish now' w').2.registry = w'.registry := by
  cases ask with
  | store c => exact registry_call w' rules now' c
  | now => rfl
  | pause length => rfl
  | note event => rfl

end LimitWorld

namespace Steady

variable {keeps : Timeline (Gate.interface α) (LimitWorld α) → Prop}
  {t met : Timeline (Gate.interface α) (LimitWorld α)}

theorem sleep (hsteady : Steady rules keeps) (millis : Nat) (ht : keeps t) :
    keeps (t.sleep (rules.surroundings α) millis) := by
  unfold Timeline.sleep
  split
  · exact ht
  · next hwaits =>
    exact hsteady.passTo t _ (Nat.lt_add_of_pos_right (Nat.pos_of_ne_zero hwaits)) ht

theorem asked (hsteady : Steady rules keeps) (ask : Limiter.Ask) (ht : keeps t) :
    keeps (t.asked (rules.surroundings α) (.registry (.limiter ask))) :=
  hsteady.world t _ (LimitWorld.registry_startLimiter rules ask t.now t.world) ht

theorem answered (hsteady : Steady rules keeps) (ask : Limiter.Ask) (ht : keeps t) :
    keeps (t.answered (rules.surroundings α) (.registry (.limiter ask))).2 := by
  refine hsteady.world _ _ (LimitWorld.registry_finish rules ask _ _ _ _) ?_
  split
  · exact hsteady.asked ask ht
  · next hwaits =>
    have hafter := Nat.lt_add_of_pos_right (n := t.now) (Nat.pos_of_ne_zero hwaits)
    exact hsteady.passTo (t.asked _ _) _ hafter (hsteady.asked ask ht)

/-- The work of an operation on a limiter keeps a steady property. -/
theorem run_ofLimiter (hsteady : Steady rules keeps) (p : Limiter.Program β) (ht : keeps t) :
    keeps (t.run (rules.surroundings α)
      (Gate.ofRegistry ((ofLimiter p).holding (Held.busy h)))).2 := by
  induction p generalizing t with
  | done b => exact ht
  | ask ask guards resume ih =>
    rw [Gate.ofRegistry_ofLimiter_ask]
    exact ih _ (hsteady.answered ask ht)

/-- So every timeline that the work meets has it. -/
theorem meets_ofLimiter (hsteady : Steady rules keeps) (p : Limiter.Program β) (ht : keeps t)
    (hmeets : Timeline.Meets (rules.surroundings α)
      (Gate.ofRegistry ((ofLimiter p).holding (Held.busy h))) t met) : keeps met := by
  induction p generalizing t with
  | done b => rwa [hmeets.of_done]
  | ask ask guards resume ih =>
    rw [Gate.ofRegistry_ofLimiter_ask] at hmeets
    cases hmeets with
    | here => exact ht
    | waiting _ _ hafter _ => exact hsteady.passTo _ _ hafter (hsteady.asked ask ht)
    | later _ hmeets => exact ih _ (hsteady.answered ask ht) hmeets

end Steady

/-! ## The stages of a take -/

/-- Changes the registry of a timeline. -/
def onRegistry (t : Timeline (Gate.interface α) (LimitWorld α)) (change : Registry → Registry) :
    Timeline (Gate.interface α) (LimitWorld α) :=
  { t with world := { t.world with registry := change t.world.registry } }

/-- What holds before a take, while the bucket is worked on, when the access at the end was
noted, and after the take. -/
structure TakeStages (rules : LimitRules) (h : Handle)
    (before working touched after : Timeline (Gate.interface α) (LimitWorld α) → Prop) :
    Prop where
  enter : ∀ t, before t → working (onRegistry t (·.enter h (Word.clamp t.now)))
  steady : Steady rules working
  touch : ∀ t, working t → touched (onRegistry t (·.touch h (Word.clamp t.now)))
  leave : ∀ t, touched t → after (onRegistry t (·.leave h))

namespace TakeStages

variable {before working touched after : Timeline (Gate.interface α) (LimitWorld α) → Prop}
  {t met : Timeline (Gate.interface α) (LimitWorld α)}

/-- A take goes through its stages, -/
theorem run (hstages : TakeStages rules h before working touched after) (ht : before t)
    (token : String) (n : UInt64) :
    after (t.run (rules.surroundings α) (Gate.ofRegistry (h.take token n))).2 := by
  rw [Gate.ofRegistry_take]
  show after (Timeline.run _ (Routine.bind _ _) _).2
  rw [Timeline.run_bind]
  exact hstages.leave _ (hstages.touch _
    (hstages.steady.run_ofLimiter _ (hstages.enter t ht)))

/-- and meets nothing else. -/
theorem meets (hstages : TakeStages rules h before working touched after) (ht : before t)
    {token : String} {n : UInt64}
    (hmeets : Timeline.Meets (rules.surroundings α) (Gate.ofRegistry (h.take token n)) t met) :
    before met ∨ working met ∨ touched met ∨ after met := by
  rw [Gate.ofRegistry_take] at hmeets
  rcases hmeets.of_immediate rfl with rfl | hmeets
  · exact .inl ht
  have hworking := hstages.enter t ht
  rcases hmeets.of_bind with hmeets | hmeets
  · exact .inr (.inl (hstages.steady.meets_ofLimiter _ hworking hmeets))
  replace hworking := hstages.steady.run_ofLimiter (h := h) (h.bucket.take token n) hworking
  rcases hmeets.of_immediate rfl with rfl | hmeets
  · exact .inr (.inl hworking)
  have htouched := hstages.touch _ hworking
  rcases hmeets.of_immediate rfl with rfl | hmeets
  · exact .inr (.inr (.inl htouched))
  · rw [hmeets.of_done]
    exact .inr (.inr (.inr (hstages.leave _ htouched)))

end TakeStages

/-! ## What the accesses tell of a timeline -/

/-- The registry of a timeline is what the accesses tell, before the next sweep.  This is known
as long as the clock can show the time. -/
def Tells (period : Nat) (stays : LimiterKey → Option Stay) (busy : Option Handle) (swept : Bool)
    (t : Timeline (Gate.interface α) (LimitWorld α)) : Prop :=
  ∃ wake, t.queue = [.alarm wake] ∧ Awaits period swept t.now wake ∧
    (t.now ≤ Word.maxNat → t.world.registry.Reflects period stays busy wake t.now)

namespace Tells

variable {stays : LimiterKey → Option Stay} {busy : Option Handle}
  {t : Timeline (Gate.interface α) (LimitWorld α)}

theorem world (ht : Tells period stays busy swept t) {w : LimitWorld α}
    (hw : w.registry = t.world.registry) :
    Tells period stays busy swept { t with world := w } := by
  obtain ⟨wake, hqueue, hawaits, hreflects⟩ := ht
  refine ⟨wake, hqueue, hawaits, fun hfits => ?_⟩
  show w.registry.Reflects _ _ _ _ _
  rw [hw]
  exact hreflects hfits

/-- The sweep of the present instant, if there is one, is let go on. -/
theorem settle (ht : Tells period stays busy swept t) (hrules : rules.SweepsEvery period) :
    Tells period stays busy true (t.settle (rules.surroundings α)) := by
  obtain ⟨wake, hqueue, hawaits, hreflects⟩ := ht
  rcases Nat.lt_or_eq_of_le hawaits.now_le with hearly | hdue
  · rw [Timeline.settle_of_early hqueue hearly]
    exact ⟨wake, hqueue, hawaits.early hearly, hreflects⟩
  · rw [hdue] at hawaits
    have hnext : rules.nextSweep wake = wake + period := by
      rw [hrules.nextSweep, Nat.succ_mul, Nat.div_mul_cancel hawaits.dvd]
    rw [Timeline.settle_of_due hqueue (Nat.le_of_eq hdue.symm)]
    refine ⟨wake + period, ?_, ?_, fun hfits => ?_⟩
    · show [Timeline.Item.alarm (rules.nextSweep t.now)] = _
      rw [hdue, hnext]
    · rw [hdue]
      exact hawaits.rung hrules.pos
    · have hbefore := hreflects hfits
      show (t.world.registry.sweep (Word.clamp t.now)).2.1.Reflects _ _ _ _ t.now
      rw [hdue] at hbefore hfits ⊢
      exact hbefore.sweep hrules.pos hawaits.dvd hfits

/-- Time passes, sweep after sweep; that of the instant at which it stops is left for later. -/
theorem passTo {instant : Nat} (ht : Tells period stays busy swept t)
    (hrules : rules.SweepsEvery period) (hlater : t.now < instant) :
    Tells period stays busy false (t.passTo (rules.surroundings α) instant) := by
  -- Where time begins to pass, the sweep may have been let go on before; later it has not.
  have hkept := Timeline.passTo_keeps (S := rules.surroundings α)
    (fun v => ∃ swept, Tells period stays busy swept v ∧ (t.now < v.now → swept = false))
    (Tells period stays busy true) (fun v hv => ?_) (fun v later hv hafter hnext => ?_)
    hlater ⟨swept, ht, fun hlt => absurd hlt (Nat.lt_irrefl _)⟩
  · obtain ⟨swept', hold, hfresh⟩ := hkept
    rw [Timeline.now_passTo] at hfresh
    rwa [hfresh hlater] at hold
  · obtain ⟨swept', hv, -⟩ := hv
    exact hv.settle hrules
  · obtain ⟨wake, hqueue, hawaits, hreflects⟩ := hv
    have hle : later ≤ wake := by
      refine hnext wake ?_ (hawaits.lt_of_swept rfl)
      rw [hqueue]
      rfl
    refine ⟨false, ⟨wake, hqueue, hawaits.moved hafter hle, fun hfits => ?_⟩, fun _ => rfl⟩
    exact (hreflects (Nat.le_trans (Nat.le_of_lt hafter) hfits)).later (Nat.le_of_lt hafter)

/-- This stays so while a bucket is worked on. -/
theorem steady (hrules : rules.SweepsEvery period) (since : Nat) :
    Steady rules fun t : Timeline (Gate.interface α) (LimitWorld α) =>
      since ≤ t.now ∧ Tells period stays busy (swept && t.now == since) t where
  world _ _ hw ht := ⟨ht.1, ht.2.world hw⟩
  passTo t instant hlater ht := by
    rw [Timeline.now_passTo]
    have hne : (instant == since) = false := beq_false_of_ne (by omega)
    refine ⟨by omega, ?_⟩
    rw [hne, Bool.and_false]
    exact ht.2.passTo hrules hlater

end Tells

end FlowControl.Scenario
