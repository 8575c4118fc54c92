import FlowControl.Proofs.Limiter.StoreKeys
import FlowControl.Proofs.Limiter.TakeStages
import FlowControl.Proofs.Limiter.Turns

/-!
# Uses of different keys do not meet

Uses of buckets run one after another over one store, each question of each use at a
reading of its own.  A use asks the store only about the two store keys of its bucket, so
it neither sees nor changes what is stored under other keys.  Plain limiters share no
store key; hence for any of them the uses of all the others might as well be left out.

The uses of one key may be sized differently, the readings may go back, and the store may
hold anything at the start, or be marked unavailable.
-/

namespace FlowControl

open Limiter

/-- A use of a bucket, with the reading at which each of its questions is answered. -/
structure Errand where
  bucket : Bucket
  purpose : Use
  reading : Nat → UInt64

/-- Answers questions one after another at the readings of a clock, from a place in them on. -/
def Limiter.answerAlong (reading : Nat → UInt64) (ask : interface.Request) (s : Memory × Nat) :
    interface.Answer ask × (Memory × Nat) :=
  let (answer, m) := answerAt Memory.call (reading s.2) ask s.1
  (answer, m, s.2 + 1)

namespace Errand

/-- Makes a use on its own: its result, and the store it leaves. -/
def perform (x : Errand) (m : Memory) : Except LimitError Unit × Memory :=
  let (result, m, _) := (x.bucket.use x.purpose).run (answerAlong x.reading) (m, 0)
  (result, m)

/-- Makes uses one after another: the result of each with the key it was made on, and the store
that is left. -/
def performAll : List Errand → Memory → List (LimiterKey × Except LimitError Unit) × Memory
  | [], m => ([], m)
  | x :: xs, m =>
    let (result, m) := x.perform m
    let (results, m) := performAll xs m
    ((x.bucket.key, result) :: results, m)

end Errand

namespace Bucket

variable {b : Bucket} {token : String}

/-! ## What a use asks about -/

theorem asks_take (b : Bucket) (token : String) (n : UInt64) :
    (b.take token n).Asks fun ask _ => OwnAsk b ask := by
  refine (asks_takeAsk b token n).weaken ?_
  rintro ask - (hinside | rfl | ⟨length, rfl⟩)
  · exact ownAsk_of_holderAsk hinside
  · exact .inr rfl
  · trivial

theorem asks_reset (b : Bucket) : b.reset.Asks fun ask _ => OwnAsk b ask := by
  refine ⟨trivial, fun now => ⟨.inl rfl, ?_⟩⟩
  rintro (fault | _)
  · trivial
  · refine ⟨.inr rfl, ?_⟩
    rintro (fault | _)
    · trivial
    · exact ⟨trivial, fun _ => trivial⟩

/-- A use asks the store about the two store keys of its bucket only. -/
theorem asks_use (b : Bucket) (u : Use) : (b.use u).Asks fun ask _ => OwnAsk b ask := by
  cases u with
  | take token n => exact asks_take b token n
  | reset => exact asks_reset b

end Bucket

/-! ## One use beside others -/

namespace Errand

variable {x : Errand} {m m' : Memory} {k : LimiterKey}

/-- A use on a key is made alike over stores with the same entries under its store keys. -/
theorem perform_alike (hkey : x.bucket.key = k) (h : Memory.SameUnder k.Owns m m') :
    (x.perform m).1 = (x.perform m').1 ∧
      Memory.SameUnder k.Owns (x.perform m).2 (x.perform m').2 := by
  subst hkey
  refine (fun hrun => ⟨hrun.1, hrun.2.2⟩) <| (x.bucket.asks_use x.purpose).run_alike
    (R := fun s t => s.2 = t.2 ∧ Memory.SameUnder x.bucket.key.Owns s.1 t.1)
    (s := (m, 0)) (t := (m', 0)) ?_ ⟨rfl, h⟩
  rintro ask held ⟨m, place⟩ ⟨m', _⟩ hown ⟨rfl, h⟩
  cases ask with
  | store c =>
      obtain ⟨hsame, hnext⟩ := h.call (x.reading place) c hown
      exact ⟨hsame, rfl, hnext⟩
  | _ => exact ⟨rfl, rfl, h⟩

/-- A use on another key is not noticed, if both keys are plain. -/
theorem perform_of_ne (hk : k.IsPlain) (hx : x.bucket.key.IsPlain) (hne : x.bucket.key ≠ k)
    (m : Memory) : Memory.SameUnder k.Owns (x.perform m).2 m := by
  refine (x.bucket.asks_use x.purpose).run_keeps
    (K := fun s => Memory.SameUnder k.Owns s.1 m) (s := (m, 0)) ?_ (.refl m)
  rintro ask held ⟨m', place⟩ hown h
  cases ask with
  | store c =>
      refine (Memory.sameUnder_call_of_not m' (x.reading place) c fun howns => ?_).trans h
      exact hne (hx.eq_of_owns hk hown howns)
  | _ => exact h

/-- The uses on one key. -/
def onKey (k : LimiterKey) (xs : List Errand) : List Errand :=
  xs.filter fun x => x.bucket.key == k

theorem performAll_onKey (hk : k.IsPlain) {xs : List Errand}
    (hxs : ∀ x ∈ xs, x.bucket.key.IsPlain) (h : Memory.SameUnder k.Owns m m') :
    (performAll xs m).1.filter (fun r => r.1 == k) = (performAll (onKey k xs) m').1 ∧
      Memory.SameUnder k.Owns (performAll xs m).2 (performAll (onKey k xs) m').2 := by
  induction xs generalizing m m' with
  | nil => exact ⟨rfl, h⟩
  | cons x xs ih =>
      have hrest := fun y hy => hxs y (List.mem_cons_of_mem x hy)
      by_cases hkey : x.bucket.key = k
      · -- Both runs make this use, and alike.
        obtain ⟨hresult, hstore⟩ := perform_alike hkey h
        obtain ⟨hresults, hstores⟩ := ih hrest hstore
        have hown : onKey k (x :: xs) = x :: onKey k xs := List.filter_cons_of_pos (by simp [hkey])
        simp only [hown, performAll]
        refine ⟨?_, hstores⟩
        rw [List.filter_cons_of_pos (by simp [hkey]), hresults, hresult]
      · have hx := hxs x List.mem_cons_self
        obtain ⟨hresults, hstores⟩ := ih hrest ((perform_of_ne hk hx hkey m).trans h)
        have hown : onKey k (x :: xs) = onKey k xs := List.filter_cons_of_neg (by simp [hkey])
        simp only [hown, performAll]
        refine ⟨?_, hstores⟩
        rw [List.filter_cons_of_neg (by simp [hkey]), hresults]

/-- Uses of plain keys do not meet: for each key, the results of the uses on it and what is stored
under its state key are the same as if all uses on other keys were left out. -/
theorem other_keys_unseen (k : LimiterKey) (xs : List Errand) (m : Memory) (hk : k.IsPlain)
    (hxs : ∀ x ∈ xs, x.bucket.key.IsPlain) :
    (performAll xs m).1.filter (fun r => r.1 == k) = (performAll (onKey k xs) m).1 ∧
      (performAll xs m).2.find? k.stateKey = (performAll (onKey k xs) m).2.find? k.stateKey := by
  obtain ⟨hresults, hstores⟩ := performAll_onKey hk hxs (.refl m)
  exact ⟨hresults, hstores.entry _ (.inl rfl)⟩

/-- Two callers take turns on one route, and the path of one of them looks like a store key. -/
theorem other_keys_unseen_two_callers :
    let a : LimiterKey := ⟨"svc", "a", "GET", "/movies"⟩
    let b : LimiterKey := ⟨"svc", "b", "GET", "/movies:rll:a:GET:/movies"⟩
    let xs : List Errand :=
      [⟨⟨a, .standard⟩, .take "first" 2, fun _ => 0⟩, ⟨⟨b, .standard⟩, .reset, fun _ => 4000⟩,
        ⟨⟨a, .standard⟩, .take "second" 1, fun _ => 3000⟩]
    a.IsPlain ∧ (∀ x ∈ xs, x.bucket.key.IsPlain) ∧
      (performAll xs .empty).1.filter (fun r => r.1 == a) = (performAll (onKey a xs) .empty).1 ∧
      (performAll xs .empty).2.find? a.stateKey =
        (performAll (onKey a xs) .empty).2.find? a.stateKey := by
  intro a b xs
  have ha : a.IsPlain := ⟨by decide, by decide, by decide⟩
  have hb : b.IsPlain := ⟨by decide, by decide, by decide⟩
  have hxs : ∀ x ∈ xs, x.bucket.key.IsPlain := by
    simp only [xs, List.forall_mem_cons]
    exact ⟨ha, hb, ha, nofun⟩
  exact ⟨ha, hxs, other_keys_unseen a xs .empty ha hxs⟩

end Errand

end FlowControl
