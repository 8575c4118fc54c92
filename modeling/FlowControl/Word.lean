/-!
# Words of 64 bits that stop at their ends

Clock readings, token counts and expiry times are 64-bit words.  Sums here stop
at the largest word and differences stop at zero; the lemmas give both in `Nat`.
The wrapping operators of `UInt64` are used elsewhere only where wrapping is meant.
-/

namespace FlowControl.Word

/-- The largest word, as a natural number. -/
def maxNat : Nat := 18446744073709551615

/-- The number of words. -/
def size : Nat := 18446744073709551616

/-- The word nearest to a natural number. -/
def clamp (n : Nat) : UInt64 :=
  UInt64.ofNat (min n maxNat)

/-- A sum that stops at the largest word. -/
def add (a b : UInt64) : UInt64 :=
  clamp (a.toNat + b.toNat)

/-- A difference that stops at zero. -/
def sub (a b : UInt64) : UInt64 :=
  if b ≤ a then a - b else 0

theorem toNat_le_maxNat (a : UInt64) : a.toNat ≤ maxNat := by
  have := a.toNat_lt
  simp only [maxNat]
  omega

@[simp] theorem toNat_clamp (n : Nat) : (clamp n).toNat = min n maxNat := by
  unfold clamp
  rw [UInt64.toNat_ofNat', Nat.mod_eq_of_lt]
  simp only [maxNat]
  omega

@[simp] theorem toNat_add (a b : UInt64) :
    (add a b).toNat = min (a.toNat + b.toNat) maxNat := by
  simp [add]

@[simp] theorem toNat_sub (a b : UInt64) : (sub a b).toNat = a.toNat - b.toNat := by
  unfold sub
  split
  · next h => exact UInt64.toNat_sub_of_le a b h
  · next h =>
    have : a.toNat < b.toNat := UInt64.not_le.mp h
    simp
    omega

end FlowControl.Word
