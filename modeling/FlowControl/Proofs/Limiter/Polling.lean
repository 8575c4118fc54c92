import FlowControl.Proofs.Limiter.Refill

/-!
# How often a bucket is refilled does not matter

A bucket may be refilled at any number of readings on the way to a later one.  As long as the
readings do not go back, each refill leaves the very state that it alone would have left of the
state at the start: tokens and last refill are the same.  So a bucket that is refilled only when
it is used has what it would have if it were refilled at every millisecond.

Nothing is taken in between, and the capacity may be less than what the bucket has.
-/

namespace FlowControl.TokenState

/-- The state of a bucket and what becomes of it when it is refilled at one reading after
another. -/
def polled (s : TokenState) (interval capacity : UInt64) (readings : List UInt64) :
    List TokenState :=
  s.refillAll (readings.map fun now => (now, interval, capacity))

/-- Every millisecond from one reading to another. -/
def everyMillisecond (first last : UInt64) : List UInt64 :=
  (List.range' first.toNat (last.toNat + 1 - first.toNat)).map UInt64.ofNat

variable {s : TokenState} {first last now interval capacity : UInt64} {readings : List UInt64}

theorem polled_cons (s : TokenState) (interval capacity now : UInt64) (readings : List UInt64) :
    s.polled interval capacity (now :: readings) =
      s :: (s.refill now interval capacity).polled interval capacity readings := rfl

theorem toNat_of_mem_everyMillisecond (h : now ∈ everyMillisecond first last) :
    first.toNat ≤ now.toNat ∧ now.toNat ≤ last.toNat := by
  obtain ⟨n, hn, rfl⟩ := List.mem_map.mp h
  obtain ⟨hfirst, hlast⟩ := List.mem_range'_1.mp hn
  have hsize := last.toNat_lt
  rw [UInt64.toNat_ofNat', Nat.mod_eq_of_lt (by omega)]
  omega

theorem everyMillisecond_inOrder (first last : UInt64) :
    (everyMillisecond first last).Pairwise (· ≤ ·) := by
  have hsize := last.toNat_lt
  refine List.pairwise_map.mpr (List.Pairwise.imp_of_mem ?_ (List.pairwise_lt_range'))
  intro a b ha hb hab
  have ha' := List.mem_range'_1.mp ha
  have hb' := List.mem_range'_1.mp hb
  rw [UInt64.le_iff_toNat_le, UInt64.toNat_ofNat', UInt64.toNat_ofNat',
    Nat.mod_eq_of_lt (by omega), Nat.mod_eq_of_lt (by omega)]
  omega

theorem getLast?_everyMillisecond (h : first ≤ last) :
    (everyMillisecond first last).getLast? = some last := by
  have hle := UInt64.le_iff_toNat_le.mp h
  have hlast : last.toNat + 1 - first.toNat = (last.toNat - first.toNat) + 1 := by omega
  have hend : first.toNat + 1 * (last.toNat - first.toNat) = last.toNat := by omega
  rw [everyMillisecond, hlast, List.range'_concat, List.map_append, List.map_singleton,
    List.getLast?_concat, hend, UInt64.ofNat_toNat]

/-- After readings that do not go back, a bucket stands at each of them where one refill at that
reading leads. -/
theorem polled_eq (hlast : ∀ now ∈ readings, s.lastRefillAt ≤ now)
    (horder : readings.Pairwise (· ≤ ·)) :
    s.polled interval capacity readings =
      s :: readings.map fun now => s.refill now interval capacity := by
  induction readings generalizing s with
  | nil => rfl
  | cons now readings ih =>
      obtain ⟨hnow, horder⟩ := List.pairwise_cons.mp horder
      have hfirst := UInt64.le_iff_toNat_le.mp (hlast now List.mem_cons_self)
      have hlast' : ∀ later ∈ readings, (s.refill now interval capacity).lastRefillAt ≤ later :=
        fun later hlater => UInt64.le_trans
          (UInt64.le_iff_toNat_le.mpr (fits_refill s now interval capacity).lastRefillAt_le)
          (hnow later hlater)
      rw [polled_cons, ih hlast' horder, List.map_cons]
      -- From here on the refill at this reading is not noticed.
      congr 2
      exact List.map_congr_left fun later hlater =>
        refill_refill hfirst (UInt64.le_iff_toNat_le.mp (hnow later hlater))

/-- Refills do not depend on the path.  A bucket that is refilled at readings that do not go back
has, after each of them, the tokens and the last refill that one refill at that reading gives it;
in particular after the last one.  So a refill when it is needed leaves what refills at every
millisecond leave. -/
theorem refill_path_independent (s : TokenState) (interval capacity : UInt64)
    (readings : List UInt64) (hlast : ∀ now ∈ readings.head?, s.lastRefillAt ≤ now)
    (horder : readings.Pairwise (· ≤ ·)) :
    s.polled interval capacity readings =
        s :: readings.map (fun now => s.refill now interval capacity) ∧
      (∀ last ∈ readings.getLast?, (s.polled interval capacity readings).getLast? =
        some (s.refill last interval capacity)) ∧
      ∀ now, s.lastRefillAt ≤ now →
        (s.polled interval capacity (everyMillisecond s.lastRefillAt now)).getLast? =
          some (s.refill now interval capacity) := by
  have hall : ∀ now ∈ readings, s.lastRefillAt ≤ now := by
    cases readings with
    | nil => exact fun now h => nomatch h
    | cons first readings =>
        have hfirst := hlast first rfl
        obtain ⟨hlater, -⟩ := List.pairwise_cons.mp horder
        exact List.forall_mem_cons.mpr
          ⟨hfirst, fun now hnow => UInt64.le_trans hfirst (hlater now hnow)⟩
  have hend : ∀ {readings : List UInt64} {last : UInt64}, readings.getLast? = some last →
      (s :: readings.map fun now => s.refill now interval capacity).getLast? =
        some (s.refill last interval capacity) := by
    intro readings last hlast
    rw [List.getLast?_cons, List.getLast?_map, hlast]
    rfl
  have hpolled : s.polled interval capacity readings = _ := polled_eq hall horder
  refine ⟨hpolled, fun last hlast => ?_, fun now hnow => ?_⟩
  · rw [hpolled]
    exact hend hlast
  · rw [polled_eq (fun reading h => UInt64.le_iff_toNat_le.mpr (toNat_of_mem_everyMillisecond h).1)
      (everyMillisecond_inOrder _ _)]
    exact hend (getLast?_everyMillisecond hnow)

/-- An empty bucket of two tokens, one back every three seconds, looked at in the middle of its
intervals and when it is full. -/
theorem refill_path_independent_four_looks :
    let s : TokenState := ⟨0, 100⟩
    let readings : List UInt64 := [1600, 4600, 6099, 9200]
    (∀ now ∈ readings.head?, s.lastRefillAt ≤ now) ∧ readings.Pairwise (· ≤ ·) ∧
      s.polled 3000 2 readings = [s, ⟨0, 100⟩, ⟨1, 3100⟩, ⟨1, 3100⟩, ⟨2, 9200⟩] := by
  intro s readings
  have hlast : ∀ now ∈ readings.head?, s.lastRefillAt ≤ now := by
    rintro _ ⟨⟩
    decide
  have horder : readings.Pairwise (· ≤ ·) := by decide
  have hpolled := (refill_path_independent s 3000 2 readings hlast horder).1
  exact ⟨hlast, horder, hpolled.trans (by decide)⟩

end FlowControl.TokenState
