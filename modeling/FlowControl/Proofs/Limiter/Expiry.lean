import FlowControl.Proofs.Limiter.Config
import FlowControl.Proofs.Limiter.InTurn

/-!
# When the expiry of states mints tokens

A bucket whose state has expired starts again full.  This goes unnoticed exactly if
the state was kept for as long as the bucket takes to fill up, or is kept for ever:
then takes over the store in memory answer as over the lasting store.  Otherwise
two takes tell the stores apart.  The first empties the bucket, and the second finds
it full once the state has expired, before its tokens have come back.

At the last reading of the clock every text that is stored has expired at once, so
there no valid configuration keeps a bucket from filling up for nothing.  The
clock is kept below that reading where it matters.
-/

namespace FlowControl.Bucket

open TakeCall

variable {b : Bucket} {m m' : Memory}

/-- Two takes of the whole capacity. -/
def emptiedTwice (b : Bucket) (first second : UInt64) : List TakeCall :=
  [⟨first, "first", b.config.capacity⟩, ⟨second, "second", b.config.capacity⟩]

theorem inOrder_emptiedTwice {first second : UInt64} (h : first ≤ second) :
    InOrder (b.emptiedTwice first second) := by
  simp [InOrder, emptiedTwice, h]

theorem leftOf_full (capacity now : UInt64) :
    leftOf (.full capacity now) capacity = ⟨0, now⟩ := by
  simp [leftOf, TokenState.full, TokenState.spend]

theorem verdict_full (now : UInt64) :
    b.verdict (.full b.config.capacity now) b.config.capacity = .ok () :=
  if_pos (UInt64.le_refl _)

theorem refilled_none (now : UInt64) : b.refilled none now = .full b.config.capacity now :=
  TokenState.refill_full _ _ _

/-- Where states expire before the bucket fills up, two takes of everything tell the store in
memory and the lasting store apart. -/
theorem emptiedTwice_differ (first second : UInt64)
    (hexpired : Memory.expiry first b.config.stateTtl ≤ second)
    (hshort : (second.toNat - first.toNat) / (TokenState.step b.config.intervalMillis).toNat <
      b.config.capacity.toNat) :
    (b.takesInTurn Memory.call (b.emptiedTwice first second) Memory.empty).1 ≠
      (b.takesInTurn Memory.callLasting (b.emptiedTwice first second) Memory.empty).1 := by
  have hempty := b.keeps_empty
  obtain ⟨m₁, hkeeps₁, hcall₁⟩ := takesInTurn_call_cons hempty
    ⟨first, "first", b.config.capacity⟩ [⟨second, "second", b.config.capacity⟩] (refilled_none _)
  obtain ⟨m₂, hkeeps₂, hlasting₁⟩ := takesInTurn_callLasting_cons hempty
    ⟨first, "first", b.config.capacity⟩ [⟨second, "second", b.config.capacity⟩] (refilled_none _)
  have hgone : b.standing (some ⟨leftOf (.full b.config.capacity first) b.config.capacity,
      first⟩) second = none := by
    simp [standing, Option.filter, UInt64.not_lt.mpr hexpired]
  obtain ⟨_, _, hcall₂⟩ := takesInTurn_call_cons hkeeps₁
    ⟨second, "second", b.config.capacity⟩ [] (s := .full b.config.capacity second)
    (by rw [hgone, refilled_none])
  obtain ⟨_, _, hlasting₂⟩ := takesInTurn_callLasting_cons hkeeps₂
    ⟨second, "second", b.config.capacity⟩ [] rfl
  unfold emptiedTwice
  rw [hcall₁, hcall₂, hlasting₁, hlasting₂]
  -- The store in memory grants the second take; the lasting store has too few tokens for it.
  intro hsame
  have hsecond := (List.cons.inj (List.cons.inj hsame).2).1
  rw [verdict_full] at hsecond
  have hearned : (0 : UInt64).toNat +
      ((⟨0, first⟩ : TokenState).earned second b.config.intervalMillis).toNat <
        b.config.capacity.toNat := by
    rw [TokenState.toNat_earned_step]
    simpa using hshort
  have hrefused : ¬ b.config.capacity ≤ (b.refilled (some ⟨0, first⟩) second).tokens := by
    rw [UInt64.le_iff_toNat_le]
    show ¬ _ ≤ (TokenState.refill ⟨0, first⟩ _ _ _).tokens.toNat
    rw [TokenState.toNat_tokens_refill hearned]
    exact Nat.not_le.mpr hearned
  rw [leftOf_full] at hsecond
  simp [verdict, hrefused] at hsecond

/-- If what is left at any reading refills to the same state as what was stored, takes over
both stores have the same results. -/
theorem takesInTurn_agree
    (hrefill : ∀ (k : Kept) (now : UInt64), k.state.Fits b.config.capacity k.writtenAt →
      now.toNat < Word.maxNat →
        b.refilled (b.standing (some k) now) now = b.refilled (some k.state) now)
    {xs : List TakeCall} (hclock : ∀ x ∈ xs, x.reading.toNat < Word.maxNat)
    {kept : Option Kept} (hfits : ∀ k ∈ kept, k.state.Fits b.config.capacity k.writtenAt)
    (hkeeps : b.Keeps kept m) (hkeeps' : b.Keeps kept m') :
    (b.takesInTurn Memory.call xs m).1 = (b.takesInTurn Memory.callLasting xs m').1 := by
  induction xs generalizing kept m m' with
  | nil => rfl
  | cons x xs ih =>
      have hstate : b.refilled (b.standing kept x.reading) x.reading =
          b.refilled (kept.map (·.state)) x.reading := by
        cases kept with
        | none => rfl
        | some k =>
            exact hrefill k x.reading (hfits k rfl) (hclock x (List.mem_cons_self ..))
      obtain ⟨m₁, hkeeps₁, hcall⟩ := takesInTurn_call_cons hkeeps x xs hstate
      obtain ⟨m₂, hkeeps₂, hlasting⟩ := takesInTurn_callLasting_cons hkeeps' x xs rfl
      have hfits₁ : ∀ k ∈ some (Kept.mk (leftOf (b.refilled (kept.map (·.state)) x.reading)
          x.amount) x.reading), k.state.Fits b.config.capacity k.writtenAt := by
        intro k hk
        cases hk
        exact fits_leftOf b _ x.reading x.amount
      rw [hcall, hlasting,
        ih (fun y hy => hclock y (List.mem_cons_of_mem _ hy)) hfits₁ hkeeps₁ hkeeps₂]

/-- A state that is kept until the last reading of the clock is there at every earlier one. -/
theorem standing_of_lasting {k : Kept} {now : UInt64}
    (hlife : b.config.stateTtl.millisWord.toNat = Word.maxNat)
    (hnow : now.toNat < Word.maxNat) : b.standing (some k) now = some k.state := by
  have hlive : now < Memory.expiry k.writtenAt b.config.stateTtl := by
    rw [UInt64.lt_iff_toNat_lt, Memory.expiry, Word.toNat_add, hlife]
    omega
  simp [standing, Option.filter, hlive]

/-- Takes before the last reading of the clock have the same results as if states never expired
exactly if states are kept until the bucket has filled up or until that reading.  At that reading
no valid configuration has this property. -/
theorem takesInTurn_call_eq_callLasting_iff (b : Bucket) (hvalid : b.config.check = .ok ()) :
    ((∀ takes, InOrder takes → (∀ x ∈ takes, x.reading.toNat < Word.maxNat) →
        (b.takesInTurn Memory.call takes Memory.empty).1 =
          (b.takesInTurn Memory.callLasting takes Memory.empty).1) ↔
      b.config.capacity.toNat * b.config.intervalMillis.toNat ≤
          b.config.stateTtl.millisWord.toNat ∨
        b.config.stateTtl.millisWord.toNat = Word.maxNat) ∧
    ∃ takes, InOrder takes ∧
      (b.takesInTurn Memory.call takes Memory.empty).1 ≠
        (b.takesInTurn Memory.callLasting takes Memory.empty).1 := by
  have hstep := LimiterConfig.step_intervalMillis hvalid
  have hinterval := LimiterConfig.le_intervalMillis hvalid
  have hcapacity := LimiterConfig.capacity_pos hvalid
  have hzero : (0 : UInt64).toNat = 0 := rfl
  refine ⟨⟨fun hagree => ?_, fun hlife => ?_⟩, ?_⟩
  · rcases Nat.lt_or_ge b.config.stateTtl.millisWord.toNat
      (b.config.capacity.toNat * b.config.intervalMillis.toNat) with hshort | hlong
    · -- The bucket is emptied at the first reading, and again when its state has expired.
      refine Or.inr (Nat.le_antisymm (Word.toNat_le_maxNat _) (Nat.le_of_not_lt fun hmax => ?_))
      refine emptiedTwice_differ 0 b.config.stateTtl.millisWord ?_ ?_
        (hagree _ (inOrder_emptiedTwice ?_) ?_)
      · rw [UInt64.le_iff_toNat_le, Memory.expiry, Word.toNat_add, hzero]
        omega
      · rw [hstep, hzero, Nat.div_lt_iff_lt_mul (by omega)]
        omega
      · rw [UInt64.le_iff_toNat_le, hzero]
        exact Nat.zero_le _
      · intro x hx
        rcases List.mem_cons.mp hx with rfl | hx
        · exact Nat.zero_lt_succ _
        · rw [List.mem_singleton.mp hx]
          exact hmax
    · exact Or.inl hlong
  · intro takes _ hclock
    refine takesInTurn_agree ?_ hclock (fun k hk => by cases hk) b.keeps_empty b.keeps_empty
    intro k now hfits hnow
    rcases hlife with hlong | hlasting
    · exact refilled_standing hfits (by rw [hstep]; exact hlong) hnow
    · rw [standing_of_lasting hlasting hnow]
  · -- At the last reading a text has expired as soon as it is stored.
    have hlast : (Word.clamp Word.maxNat).toNat = Word.maxNat := by
      rw [Word.toNat_clamp]
      exact Nat.min_self _
    refine ⟨b.emptiedTwice (Word.clamp Word.maxNat) (Word.clamp Word.maxNat),
      inOrder_emptiedTwice (UInt64.le_refl _), emptiedTwice_differ _ _ ?_ ?_⟩
    · rw [UInt64.le_iff_toNat_le, hlast]
      exact Word.toNat_le_maxNat _
    · rw [Nat.sub_self, Nat.zero_div]
      exact hcapacity

/-- Five tokens, one of them back every second, and a state that is kept for two: here the
expiry of states shows. -/
theorem takesInTurn_differ_of_short_life :
    let b : Bucket := ⟨⟨"svc", "caller", "GET", "/movies"⟩, ⟨5, .ofSecs 1, 2, .standard⟩⟩
    ¬ ∀ takes, InOrder takes → (∀ x ∈ takes, x.reading.toNat < Word.maxNat) →
      (b.takesInTurn Memory.call takes Memory.empty).1 =
        (b.takesInTurn Memory.callLasting takes Memory.empty).1 := by
  intro b hagree
  rcases (takesInTurn_call_eq_callLasting_iff b rfl).1.mp hagree with hlong | hlasting
  · exact absurd hlong (by decide)
  · exact absurd hlasting (by decide)

end FlowControl.Bucket
