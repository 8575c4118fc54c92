import FlowControl.Proofs.Limiter.StateText
import FlowControl.Proofs.Limiter.TakeProgram
import FlowControl.Proofs.Transcript

/-!
# What a take costs

A ledger follows a transcript and notes how many tokens were taken from a bucket: whenever a
state is stored, the tokens that it lacks against the state that was read before, refilled
up to the reading of the clock.  A state that could not be stored takes nothing, and one
that is stored without a reading before it is compared to a full bucket.

A take that succeeds takes its tokens, and a take that fails takes none, whatever the
answers of the store are.  Nothing is said about what other takes do meanwhile: the state
that was read may be out of date when the new one is stored.
-/

namespace FlowControl

open Limiter Routine

/-- What a transcript shows so far: the bucket that is used, the last reading of the clock, the
state that was read last, the tokens that were taken, the passes in spite of a failure that were
reported, and the requests that were served. -/
structure Ledger where
  bucket : Option Bucket
  reading : UInt64
  stored : Option TokenState
  taken : Int
  failOpens : Nat
  serves : Nat

namespace Ledger

/-- Nothing shown yet. -/
def blank : Ledger := ⟨none, 0, none, 0, 0, 0⟩

/-- A text was read under a key, or none was there. -/
def read (l : Ledger) (key : String) (text : Option String) : Ledger :=
  match l.bucket with
  | some b =>
    if key = b.key.stateKey then
      { l with stored := text.bind fun text => (TokenState.parse text).toOption }
    else l
  | none => l

/-- A text was stored under a key. -/
def wrote (l : Ledger) (key text : String) : Ledger :=
  match l.bucket, TokenState.parse text with
  | some b, .ok state =>
    if key = b.key.stateKey then
      let found := b.refilled l.stored l.reading
      { l with taken := l.taken + (found.tokens.toNat - state.tokens.toNat) }
    else l
  | _, _ => l

/-- Notes what a program over the store asked and was answered. -/
def note (l : Ledger) : Exchange Limiter.interface → Ledger
  | ⟨.now, reading⟩ => { l with reading }
  | ⟨.store (.get key), .ok text⟩ => l.read key text
  | ⟨.store (.set key text _), .ok ()⟩ => l.wrote key text
  | ⟨.note (.failingOpen ..), _⟩ => { l with failOpens := l.failOpens + 1 }
  | _ => l

/-- Is only this many tokens the difference between two ledgers, but for what was read? -/
structure Paid (l l' : Ledger) (amount : Int) : Prop where
  bucket : l'.bucket = l.bucket
  taken : l'.taken = l.taken + amount
  failOpens : l'.failOpens = l.failOpens
  serves : l'.serves = l.serves

theorem Paid.nothing (l : Ledger) : Paid l l 0 := ⟨rfl, (Int.add_zero _).symm, rfl, rfl⟩

theorem Paid.after {l l' l'' : Ledger} {amount : Int} (h : Paid l l' 0) (h' : Paid l' l'' amount) :
    Paid l l'' amount where
  bucket := h'.bucket.trans h.bucket
  taken := by rw [h'.taken, h.taken, Int.add_zero]
  failOpens := h'.failOpens.trans h.failOpens
  serves := h'.serves.trans h.serves

theorem paid_read {l : Ledger} {b : Bucket} (hbucket : l.bucket = some b) (text : Option String) :
    let l' := l.read b.key.stateKey text
    Paid l l' 0 ∧ l'.reading = l.reading ∧
      l'.stored = text.bind fun text => (TokenState.parse text).toOption := by
  simp only [read, hbucket, if_true, and_self, and_true]
  exact ⟨hbucket.symm, (Int.add_zero _).symm, rfl, rfl⟩

/-- Questions that are not noted. -/
def Aside : Limiter.Ask → Prop
  | .now | .store (.get _) | .store (.set ..) | .note (.failingOpen ..) => False
  | _ => True

theorem note_of_aside {ask : Limiter.Ask} (h : Aside ask) (answer : ask.Answer) (l : Ledger) :
    l.note ⟨ask, answer⟩ = l := by
  cases ask with
  | now => exact h.elim
  | pause length => rfl
  | store call =>
      cases call with
      | get key | set key value ttl => exact h.elim
      | _ => rfl
  | note event =>
      cases event with
      | failingOpen key error => exact h.elim
      | _ => rfl

/-- What asks nothing that is noted leaves the ledger as it is. -/
theorem ends_of_aside {α : Type} {p : Limiter.Program α} {l : Ledger}
    (hp : p.Asks fun ask _ => Aside ask) : p.Ends note (fun l' _ => l' = l) l :=
  hp.ends fun _ _ haside answer l => note_of_aside haside answer l

end Ledger

/-- What a take of tokens costs by its result. -/
def costOf (n : UInt64) : Except LimitError Unit → Int
  | .ok () => n.toNat
  | .error _ => 0

namespace Bucket

open Ledger (Aside Paid)

variable {b : Bucket} {token : String} {n : UInt64} {l : Ledger} {s : TokenState}

/-! ## What is not noted of a take -/

theorem aside_release (guard : Guard) :
    (release guard).Asks fun (ask : Limiter.Ask) _ => Aside ask := by
  refine ⟨trivial, ?_⟩
  rintro (fault | _ | _)
  · trivial
  · exact ⟨trivial, fun _ => trivial⟩
  · trivial

/-- The report on a take changes nothing. -/
theorem ends_reported (b : Bucket) (result : Except LimitError Unit) (l : Ledger) :
    (b.reported result).Ends Ledger.note (fun l' result' => l' = l ∧ result' = result) l := by
  cases result with
  | ok _ => exact ⟨rfl, rfl⟩
  | error error =>
      show Ends _ _ (if error.isBackendFailure then _ else _) l
      split
      · exact fun _ => ⟨rfl, rfl⟩
      · exact ⟨rfl, rfl⟩

theorem ends_handedBack (b : Bucket) (result : Except LimitError Unit)
    (released : Except StoreFault Unit) (l : Ledger) :
    (b.handedBack result released).Ends Ledger.note
      (fun l' result' => l' = l ∧ result' = result) l := by
  cases released with
  | ok _ => exact b.ends_reported result l
  | error fault => exact fun _ => b.ends_reported result l

/-! ## What is paid inside a take -/

/-- Storing a state takes what it lacks against the one that was read. -/
theorem ends_save (hbucket : l.bucket = some b) (s : TokenState) :
    (b.save s).Ends Ledger.note (fun l' result =>
      Paid l l' (match result with
        | .ok () => (b.refilled l.stored l.reading).tokens.toNat - s.tokens.toNat
        | .error _ => 0)) l := by
  rintro (fault | _)
  · exact .nothing l
  · show Paid l (l.wrote b.key.stateKey s.encode) _
    simp only [Ledger.wrote, hbucket, TokenState.parse_encode, if_true]
    exact ⟨hbucket.symm, rfl, rfl, rfl⟩

/-- A take with a refilled state pays if it succeeds. -/
theorem ends_charge (hbucket : l.bucket = some b) (n : UInt64) :
    (b.charge n (b.refilled l.stored l.reading)).Ends Ledger.note
      (fun l' result => Paid l l' (costOf n result)) l := by
  generalize hs : b.refilled l.stored l.reading = s
  unfold charge
  split
  · next henough =>
    refine (ends_save hbucket _).weaken fun l' result hpaid => ?_
    cases result with
    | error _ => exact hpaid
    | ok _ =>
        -- What was there before less what is left is what was asked for.
        have hspent : (s.tokens.toNat : Int) - (s.spend n).tokens.toNat = n.toNat := by
          have hle := UInt64.le_iff_toNat_le.mp henough
          rw [TokenState.spend, UInt64.toNat_sub_of_le _ _ henough]
          omega
        dsimp only at hpaid
        rwa [hs, hspent] at hpaid
  · refine Ends.bind ((ends_save hbucket s).weaken fun l' result hpaid => ?_)
    cases result with
    | error _ => exact hpaid
    | ok _ =>
        dsimp only at hpaid
        rw [hs, Int.sub_self] at hpaid
        exact fun _ => hpaid

/-- Reading the state pays nothing, and the ledger shows what was read. -/
theorem ends_load (hbucket : l.bucket = some b) :
    b.load.Ends Ledger.note (fun l' loaded =>
      Paid l l' 0 ∧ ∀ stored, loaded = .ok stored →
        l'.reading = l.reading ∧ l'.stored = stored) l := by
  rintro (fault | text)
  · exact ⟨.nothing l, nofun⟩
  · obtain ⟨hpaid, hreading, hstored⟩ := Ledger.paid_read hbucket text
    cases text with
    | none => exact ⟨hpaid, by rintro _ ⟨⟩; exact ⟨hreading, hstored⟩⟩
    | some text =>
        simp only [Routine.done_bind]
        split
        · next state hparse =>
          refine ⟨hpaid, ?_⟩
          rintro _ ⟨⟩
          rw [Option.bind_some, hparse] at hstored
          exact ⟨hreading, hstored⟩
        · exact ⟨hpaid, nofun⟩

theorem ends_takeLocked (hbucket : l.bucket = some b) (n : UInt64) :
    (b.takeLocked n).Ends Ledger.note (fun l' result => Paid l l' (costOf n result)) l := by
  rw [takeLocked_eq]
  intro reading
  have hclock : Paid l { l with reading } 0 := ⟨rfl, (Int.add_zero _).symm, rfl, rfl⟩
  refine Ends.bind (p := b.load) ((ends_load (l := { l with reading }) hbucket).weaken ?_)
  rintro l' (error | stored) ⟨hpaid, hshown⟩
  · exact hclock.after hpaid
  · obtain ⟨hreading, rfl⟩ := hshown stored rfl
    have hfound : b.refilled l'.stored reading = b.refilled l'.stored l'.reading := by
      rw [hreading]
    show Ends _ _ (b.charge n (b.refilled l'.stored reading)) l'
    rw [hfound]
    refine (ends_charge (hpaid.bucket.trans hbucket) n).weaken fun l'' result hcharged => ?_
    exact hclock.after (hpaid.after hcharged)

/-- A take pays for its tokens if it succeeds, and pays nothing if it fails. -/
theorem ends_take (hbucket : l.bucket = some b) (token : String) (n : UInt64) :
    (b.take token n).Ends Ledger.note (fun l' result => Paid l l' (costOf n result)) l := by
  rw [take_eq]
  have htries : (acquireFrom b.config.lock b.key.lockKey token .zero).Asks fun ask _ =>
      Aside ask :=
    asks_acquireFrom_of trivial (fun _ => trivial) trivial (fun _ => trivial) .zero
  refine Ends.bind ((Ledger.ends_of_aside htries).weaken ?_)
  rintro l (error | guard) rfl
  · exact .nothing l
  · refine Ends.bind ((ends_takeLocked hbucket n).holding.weaken fun l' result hpaid => ?_)
    refine Ends.bind ((Ledger.ends_of_aside (aside_release guard)).weaken ?_)
    rintro l' released rfl
    refine (b.ends_handedBack result released l').weaken ?_
    rintro l' result ⟨rfl, rfl⟩
    exact hpaid

end Bucket

end FlowControl
