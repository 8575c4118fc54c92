import FlowControl.Limiter.StateText
import FlowControl.Proofs.Json.Member

/-!
# A stored state reads back

The text under which a bucket keeps its state holds both numbers in full, so
reading it gives the state again, for every pair of 64-bit numbers.
-/

namespace FlowControl.TokenState

open Json

/-- A field that holds a number is read off the digits of that number. -/
theorem read_field_toDigits (name : String) (set : UInt64 → TokenState → TokenState) (n : UInt64)
    {rest : List Char} (hrest : EndsNumber rest) :
    (field name number set).read (Nat.toDigits 10 n.toNat ++ rest) = .ok (set n, rest) := by
  have hn : n.toNat ≤ Word.maxNat := Word.toNat_le_maxNat n
  have hnumber : number (Nat.toDigits 10 n.toNat ++ rest) = .ok (n, rest) := by
    unfold number
    rw [natural_toDigits hn hn "u64" hrest]
    simp [Except.map]
  unfold field
  simp [hnumber, Except.map]

/-- The stored text, character by character. -/
theorem toList_encode (s : TokenState) :
    s.encode.toList =
      '\x7b' :: (separator false ++ '"' :: ("tokens".toList ++ '"' :: ':' ::
        (Nat.toDigits 10 s.tokens.toNat ++
          (separator true ++ '"' :: ("last_refill_at".toList ++ '"' :: ':' ::
            (Nat.toDigits 10 s.lastRefillAt.toNat ++ ['\x7d'])))))) := by
  unfold encode
  simp only [String.toList_append, Nat.toString_eq_repr, Nat.toList_repr, List.append_assoc]
  rfl

/-- The members of a stored text give both numbers. -/
theorem readMembers_encode (s : TokenState) (fuel : Nat) :
    shape.readMembersWith (fuel + 3) false [] shape.base
        (separator false ++ '"' :: ("tokens".toList ++ '"' :: ':' ::
          (Nat.toDigits 10 s.tokens.toNat ++
            (separator true ++ '"' :: ("last_refill_at".toList ++ '"' :: ':' ::
              (Nat.toDigits 10 s.lastRefillAt.toNat ++ ['\x7d'])))))) =
      .ok (s, []) := by
  rw [shape.readMembersWith_member (f := field "tokens" number fun n s => { s with tokens := n })
      "tokens".toList _ _ (fuel + 2) false [] shape.base rfl (by simp [IsPlain]) (by decide)
      (read_field_toDigits _ _ s.tokens (endsNumber_separator _)),
    shape.readMembersWith_member
      (f := field "last_refill_at" number fun n s => { s with lastRefillAt := n })
      "last_refill_at".toList _ _ (fuel + 1) true _ _ rfl (by simp [IsPlain]) (by decide)
      (read_field_toDigits _ _ s.lastRefillAt (endsNumber_brace _)),
    shape.readMembersWith_end]
  rfl

/-- Reading a stored text gives the state that was stored. -/
@[simp] theorem parse_encode (s : TokenState) : parse s.encode = .ok s := by
  have hread : shape.read s.encode.toList = .ok (s, []) := by
    rw [toList_encode]
    exact readMembers_encode s _
  unfold parse readText
  rw [hread]
  rfl

end FlowControl.TokenState
