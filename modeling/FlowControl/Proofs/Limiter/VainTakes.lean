import FlowControl.Proofs.Limiter.Config
import FlowControl.Proofs.Limiter.InTurn

/-!
# Takes that get nothing

A take that is refused, or that asks for nothing, still stores what it has refilled.  So it
moves the last refill of the stored state and the reading at which that expires, and two
sequences that differ in such takes differ in what they store from then on.  They do
not differ in what they grant: both states refill to the same one at every later reading,
and this is kept by every take, whether the bucket fills up, is emptied or expires.

States are kept here for as long as the bucket takes to fill up.  With a shorter life the
takes that get nothing would keep a state alive that is lost without them.
-/

namespace FlowControl

/-- A take of a sequence, and whether it was put in between the others. -/
structure MixedTake where
  call : TakeCall
  isExtra : Bool
  deriving DecidableEq, Repr

namespace MixedTake

/-- All takes of a sequence. -/
def calls (xs : List MixedTake) : List TakeCall := xs.map (·.call)

/-- The takes that were not put in. -/
def others (xs : List MixedTake) : List TakeCall := (xs.filter (!·.isExtra)).map (·.call)

/-- Of the results of all takes, those of the takes that were not put in. -/
def resultsOfOthers (xs : List MixedTake) (results : List (Except LimitError Unit)) :
    List (Except LimitError Unit) :=
  ((xs.zip results).filter (!·.1.isExtra)).map (·.2)

end MixedTake

/-- Did a take with this result get nothing, because it was refused or asked for nothing? -/
def TakeCall.isVain (x : TakeCall) : Except LimitError Unit → Bool
  | .ok () => x.amount == 0
  | .error error => error.isExceeded

namespace Bucket

open TakeCall MixedTake

variable {b : Bucket} {m : Memory} {kept kept' : Option Kept} {since now n : UInt64}
  {s : TokenState} {x : TakeCall} {xs : List TakeCall} {mixed : List MixedTake}

/-- The results of takes one after another, by what was stored before them. -/
def resultsFrom (b : Bucket) : Option Kept → List TakeCall → List (Except LimitError Unit)
  | _, [] => []
  | kept, x :: xs =>
    let s := b.refilled (b.standing kept x.reading) x.reading
    b.verdict s x.amount :: b.resultsFrom (some ⟨leftOf s x.amount, x.reading⟩) xs

theorem takesInTurn_call_eq (hkeeps : b.Keeps kept m) (xs : List TakeCall) :
    (b.takesInTurn Memory.call xs m).1 = b.resultsFrom kept xs := by
  induction xs generalizing kept m with
  | nil => rfl
  | cons x xs ih =>
      obtain ⟨m', hkeeps', hresults⟩ := takesInTurn_call_cons hkeeps x xs rfl
      rw [hresults, ih hkeeps']
      rfl

/-! ## States that refill alike -/

/-- A take that got nothing leaves the state as it was refilled. -/
theorem leftOf_of_isVain (h : x.isVain (b.verdict s x.amount) = true) :
    leftOf s x.amount = s := by
  unfold leftOf
  split
  · next henough =>
    rw [verdict, if_pos henough] at h
    have hzero : x.amount = 0 := beq_iff_eq.mp h
    rw [hzero]
    exact congrArg (TokenState.mk · s.lastRefillAt) (UInt64.sub_zero ..)
  · rfl

/-- Was what is stored, if anything is, stored by a reading, and is it what a bucket can store? -/
def StoredBy (b : Bucket) (since : UInt64) (kept : Option Kept) : Prop :=
  ∀ k ∈ kept, k.state.Fits b.config.capacity k.writtenAt ∧ k.writtenAt ≤ since

/-- What was stored in two places refills to the same state at every later reading. -/
structure RefillsAlike (b : Bucket) (since : UInt64) (kept kept' : Option Kept) : Prop where
  stored : b.StoredBy since kept
  stored' : b.StoredBy since kept'
  refilled : ∀ now, since ≤ now →
    b.refilled (kept.map (·.state)) now = b.refilled (kept'.map (·.state)) now

theorem StoredBy.later (h : b.StoredBy since kept) (hle : since ≤ now) : b.StoredBy now kept :=
  fun k hk => ⟨(h k hk).1, UInt64.le_trans (h k hk).2 hle⟩

theorem storedBy_leftOf (b : Bucket) (stored : Option TokenState) (now n : UInt64) :
    b.StoredBy now (some ⟨leftOf (b.refilled stored now) n, now⟩) := by
  rintro k ⟨⟩
  exact ⟨fits_leftOf b stored now n, UInt64.le_refl _⟩

/-- What has expired by a reading had filled up by then, so expiry is not seen in refills. -/
theorem StoredBy.refilled_standing (h : b.StoredBy since kept)
    (hlife : b.config.capacity.toNat * (TokenState.step b.config.intervalMillis).toNat ≤
      b.config.stateTtl.millisWord.toNat) (hnow : now.toNat < Word.maxNat) :
    b.refilled (b.standing kept now) now = b.refilled (kept.map (·.state)) now := by
  cases kept with
  | none => rfl
  | some k => exact Bucket.refilled_standing (h k rfl).1 hlife hnow

/-- Storing what was refilled is not seen in later refills. -/
theorem StoredBy.refilled_refilled (h : b.StoredBy since kept) (hsince : since ≤ now)
    {later : UInt64} (hlater : now ≤ later) :
    b.refilled (some (b.refilled (kept.map (·.state)) now)) later =
      b.refilled (kept.map (·.state)) later := by
  have hlater' := UInt64.le_iff_toNat_le.mp hlater
  cases kept with
  | none =>
      -- A bucket without a state is full at any reading, and full at a later one once it was.
      have hfull : (TokenState.full b.config.capacity now).refill later b.config.intervalMillis
          b.config.capacity = .full b.config.capacity later :=
        TokenState.refill_of_fills (Nat.le_add_right ..)
      show TokenState.refill (TokenState.refill (.full _ _) _ _ _) _ _ _ =
        TokenState.refill (.full _ _) _ _ _
      rw [TokenState.refill_full, TokenState.refill_full, hfull]
  | some k =>
      obtain ⟨hfits, hwritten⟩ := h k rfl
      have hwritten' := UInt64.le_iff_toNat_le.mp (UInt64.le_trans hwritten hsince)
      exact TokenState.refill_refill (Nat.le_trans hfits.lastRefillAt_le hwritten') hlater'

theorem StoredBy.refillsAlike (h : b.StoredBy since kept) : b.RefillsAlike since kept kept :=
  ⟨h, h, fun _ _ => rfl⟩

/-- A take that gets nothing may come in one place only. -/
theorem RefillsAlike.vain (h : b.RefillsAlike since kept kept') (hsince : since ≤ now)
    (hleft : leftOf (b.refilled (kept.map (·.state)) now) n =
      b.refilled (kept.map (·.state)) now) :
    b.RefillsAlike now
      (some ⟨leftOf (b.refilled (kept.map (·.state)) now) n, now⟩) kept' where
  stored := storedBy_leftOf b _ now n
  stored' := h.stored'.later hsince
  refilled later hlater := by
    rw [hleft]
    exact (h.stored.refilled_refilled hsince hlater).trans
      (h.refilled later (UInt64.le_trans hsince hlater))

/-- If the takes that were put in get nothing, the others have the results that they have alone. -/
theorem resultsFrom_others
    (hlife : b.config.capacity.toNat * (TokenState.step b.config.intervalMillis).toNat ≤
      b.config.stateTtl.millisWord.toNat)
    (horder : InOrder (calls mixed)) (hclock : ∀ x ∈ calls mixed, x.reading.toNat < Word.maxNat)
    (hafter : ∀ x ∈ calls mixed, since ≤ x.reading) (halike : b.RefillsAlike since kept kept')
    (hvain : ∀ p ∈ mixed.zip (b.resultsFrom kept (calls mixed)), p.1.isExtra = true →
      p.1.call.isVain p.2 = true) :
    resultsOfOthers mixed (b.resultsFrom kept (calls mixed)) =
      b.resultsFrom kept' (others mixed) := by
  -- On the takes: one that was put in moves only the state of all takes, any other one finds both
  -- states refilled alike and leaves the same one in both places.
  induction mixed generalizing since kept kept' with
  | nil => rfl
  | cons first mixed ih =>
      obtain ⟨x, isExtra⟩ := first
      have hsince : since ≤ x.reading := hafter x (List.mem_cons_self ..)
      have hnow : x.reading.toNat < Word.maxNat := hclock x (List.mem_cons_self ..)
      have hclock' : ∀ y ∈ calls mixed, y.reading.toNat < Word.maxNat :=
        fun y hy => hclock y (List.mem_cons_of_mem _ hy)
      have hall : b.resultsFrom kept (calls (⟨x, isExtra⟩ :: mixed)) =
          b.verdict (b.refilled (kept.map (·.state)) x.reading) x.amount ::
            b.resultsFrom (some ⟨leftOf (b.refilled (kept.map (·.state)) x.reading) x.amount,
              x.reading⟩) (calls mixed) := by
        rw [← halike.stored.refilled_standing hlife hnow]
        rfl
      rw [hall] at hvain ⊢
      have hvain' := fun p hp => hvain p (List.mem_cons_of_mem _ hp)
      cases isExtra with
      | true =>
          have hget : x.isVain (b.verdict _ x.amount) = true := hvain _ (List.mem_cons_self ..) rfl
          exact ih horder.tail hclock' horder.head
            (halike.vain hsince (leftOf_of_isVain hget)) hvain'
      | false =>
          have hsame : b.refilled (b.standing kept' x.reading) x.reading =
              b.refilled (kept.map (·.state)) x.reading := by
            rw [halike.stored'.refilled_standing hlife hnow, halike.refilled _ hsince]
          have hleft := storedBy_leftOf b (kept.map (·.state)) x.reading x.amount
          have hrest := ih horder.tail hclock' horder.head hleft.refillsAlike hvain'
          show b.verdict _ _ :: resultsOfOthers mixed _ =
            b.verdict (b.refilled (b.standing kept' x.reading) x.reading) x.amount ::
              b.resultsFrom (some ⟨leftOf (b.refilled (b.standing kept' x.reading) x.reading)
                x.amount, x.reading⟩) (others mixed)
          rw [hsame, hrest]

/-- Takes that are refused and takes of nothing, put anywhere between other takes and in any
number, change no result of the others: they neither delay the next token nor bring it closer. -/
theorem vain_takes_unnoticed (b : Bucket) (hvalid : b.config.check = .ok ())
    (hlife : b.config.capacity.toNat * b.config.interval.nanos ≤ b.config.stateTtl.nanos)
    {mixed : List MixedTake} (horder : InOrder (calls mixed))
    (hclock : ∀ x ∈ calls mixed, x.reading.toNat + b.config.stateTtl.millis < Word.size)
    (hvain : ∀ p ∈ mixed.zip (b.takesInTurn Memory.call (calls mixed) Memory.empty).1,
      p.1.isExtra = true → p.1.call.isVain p.2 = true) :
    resultsOfOthers mixed (b.takesInTurn Memory.call (calls mixed) Memory.empty).1 =
      (b.takesInTurn Memory.call (others mixed) Memory.empty).1 := by
  have hsize : Word.size = Word.maxNat + 1 := rfl
  have hstep := LimiterConfig.step_intervalMillis hvalid
  have hinterval := LimiterConfig.le_intervalMillis hvalid
  have hmillis := LimiterConfig.capacity_mul_intervalMillis_le hlife
  have hpositive : 1 * 1000 ≤ b.config.capacity.toNat * b.config.intervalMillis.toNat :=
    Nat.mul_le_mul (LimiterConfig.capacity_pos hvalid) hinterval
  rw [takesInTurn_call_eq b.keeps_empty] at hvain ⊢
  rw [takesInTurn_call_eq b.keeps_empty]
  cases mixed with
  | nil => rfl
  | cons first mixed =>
      have hfirst := hclock first.call (List.mem_cons_self ..)
      have hlife' : b.config.capacity.toNat * (TokenState.step b.config.intervalMillis).toNat ≤
          b.config.stateTtl.millisWord.toNat := by
        rw [hstep, Duration.toNat_millisWord]
        omega
      have hclock' : ∀ x ∈ calls (first :: mixed), x.reading.toNat < Word.maxNat := by
        intro x hx
        have hreading := hclock x hx
        omega
      have hnone : b.StoredBy 0 none := fun k hk => by cases hk
      exact resultsFrom_others hlife' horder hclock' (fun x _ => UInt64.zero_le)
        hnone.refillsAlike hvain

/-- A standard bucket that is emptied and then hammered, by a take that is refused, one of more
than it can hold and one of nothing: it gives the next token out when its interval is over. -/
theorem vain_takes_unnoticed_hammered :
    let b : Bucket := ⟨⟨"svc", "caller", "GET", "/movies"⟩, .standard⟩
    let mixed : List MixedTake := [⟨⟨0, "first", 2⟩, false⟩, ⟨⟨1000, "refused", 1⟩, true⟩,
      ⟨⟨2500, "large", 5⟩, true⟩, ⟨⟨2999, "nothing", 0⟩, true⟩, ⟨⟨3000, "second", 1⟩, false⟩]
    (∀ p ∈ mixed.zip (b.takesInTurn Memory.call (calls mixed) Memory.empty).1,
      p.1.isExtra = true → p.1.call.isVain p.2 = true) ∧
    resultsOfOthers mixed (b.takesInTurn Memory.call (calls mixed) Memory.empty).1 =
      (b.takesInTurn Memory.call [⟨0, "first", 2⟩, ⟨3000, "second", 1⟩] Memory.empty).1 := by
  intro b mixed
  have hvain : ∀ p ∈ mixed.zip (b.takesInTurn Memory.call (calls mixed) Memory.empty).1,
      p.1.isExtra = true → p.1.call.isVain p.2 = true := by
    rw [takesInTurn_call_eq b.keeps_empty]
    decide
  exact ⟨hvain, vain_takes_unnoticed b rfl (by decide) (by unfold InOrder; decide) (by decide)
    hvain⟩

end Bucket

end FlowControl
