import FlowControl.Json.Record

/-!
# Natural numbers as they are written

A natural number is written with the digits of base ten and no leading zero.
Reading takes exactly these digits off the front, whatever follows them, as long
as what follows cannot belong to a number.
-/

namespace FlowControl.Json

/-- Can a text go on here without belonging to the number before it? -/
def EndsNumber : List Char → Prop
  | [] => True
  | c :: _ => c.isDigit = false ∧ c ≠ '.' ∧ c ≠ 'e' ∧ c ≠ 'E'

theorem endsNumber_brace (s : List Char) : EndsNumber ('\x7d' :: s) := by simp [EndsNumber]

/-- The digits of a positive number do not start with a zero. -/
theorem toDigits_eq_cons (n : Nat) (hn : 0 < n) :
    ∃ c cs, Nat.toDigits 10 n = c :: cs ∧ c ≠ '0' := by
  induction n using Nat.strongRecOn with
  | ind n ih =>
      rw [Nat.toDigits_eq_if (by decide)]
      split
      · refine ⟨n.digitChar, [], rfl, ?_⟩
        simpa using Nat.pos_iff_ne_zero.mp hn
      · obtain ⟨c, cs, hdigits, hc⟩ := ih (n / 10) (by omega) (by omega)
        exact ⟨c, cs ++ [(n % 10).digitChar], by rw [hdigits]; rfl, hc⟩

/-- The digits of a number, then a text that ends it, are split where the digits end. -/
theorem digitRun_toDigits (n : Nat) {rest : List Char} (hrest : EndsNumber rest) :
    digitRun (Nat.toDigits 10 n ++ rest) = (Nat.toDigits 10 n, rest) := by
  have hdigits : ∀ c ∈ Nat.toDigits 10 n, c.isDigit = true := fun c hc =>
    Nat.isDigit_of_mem_toDigits (by decide) (by decide) hc
  unfold digitRun
  rw [List.takeWhile_append_of_pos hdigits, List.dropWhile_append_of_pos hdigits]
  cases rest with
  | nil => simp
  | cons c cs => simp [hrest.1]

/-- Digits whose value fits a word are all kept. -/
theorem absorb_of_le (ds : List Char) (acc : Nat)
    (h : Nat.ofDigitChars 10 ds acc ≤ Word.maxNat) :
    absorb acc ds = (Nat.ofDigitChars 10 ds acc, []) := by
  induction ds generalizing acc with
  | nil => rfl
  | cons d ds ih =>
      rw [Nat.ofDigitChars_cons] at h ⊢
      have hnext : acc * 10 + (d.toNat - 48) = 10 * acc + (d.toNat - '0'.toNat) := by
        rw [Nat.mul_comm]
        rfl
      -- The value of the digits that follow only makes the number larger.
      have hle : acc * 10 + (d.toNat - 48) ≤ Word.maxNat := by
        rw [Nat.ofDigitChars_eq_ofDigitChars_zero, ← hnext] at h
        have hpos : 0 < 10 ^ ds.length := Nat.pow_pos (by decide)
        have := Nat.le_mul_of_pos_left (acc * 10 + (d.toNat - 48)) hpos
        omega
      simp only [absorb, hle, if_true]
      rw [hnext]
      exact ih _ h

/-- A number of 64 bits is read off the front of a text that goes on with something else. -/
theorem number_toDigits {n : Nat} (hn : n ≤ Word.maxNat) {rest : List Char}
    (hrest : EndsNumber rest) :
    number false (Nat.toDigits 10 n ++ rest) = .ok (.natural n, rest) := by
  have habsorb : absorb 0 (Nat.toDigits 10 n) = (n, []) := by
    have hvalue : Nat.ofDigitChars 10 (Nat.toDigits 10 n) 0 = n := Nat.ofDigitChars_ten_toDigits
    rw [absorb_of_le _ _ (by rw [hvalue]; exact hn), hvalue]
  have htail : numberTail false n 0 rest = .ok (.natural n, rest) := by
    unfold numberTail
    cases rest with
    | nil => rfl
    | cons c cs =>
        obtain ⟨-, hpoint, hsmall, hlarge⟩ := hrest
        split
        · simp_all
        · simp_all
        · simp_all
        · simp
  unfold number
  rw [digitRun_toDigits n hrest]
  rcases Nat.eq_zero_or_pos n with rfl | hpos
  · have hzero : absorb 0 ['0'] = (0, []) := rfl
    simpa [hzero] using htail
  · obtain ⟨c, cs, hdigits, hc⟩ := toDigits_eq_cons n hpos
    rw [hdigits] at habsorb ⊢
    split
    -- The first three cases are numbers that start with a zero or have no digits.
    · simp_all
    · simp_all
    · simp_all
    · next ds _ _ _ hpair =>
        obtain ⟨rfl, rfl⟩ := Prod.mk.inj hpair
        simpa [habsorb] using htail

/-- A natural number within the bound is read off the front of a text, behind no blanks. -/
theorem natural_toDigits {n bound : Nat} (hbound : n ≤ bound) (hn : n ≤ Word.maxNat)
    (expected : String) {rest : List Char} (hrest : EndsNumber rest) :
    natural bound expected (Nat.toDigits 10 n ++ rest) = .ok (n, rest) := by
  obtain ⟨c, cs, hdigits⟩ : ∃ c cs, Nat.toDigits 10 n = c :: cs :=
    List.exists_cons_of_ne_nil Nat.toDigits_ne_nil
  have hdigit : c.isDigit = true :=
    Nat.isDigit_of_mem_toDigits (by decide) (by decide) (n := n) (hdigits ▸ List.mem_cons_self)
  have hgap : isGap c = false := by
    rw [Bool.eq_false_iff]
    intro hc
    simp only [isGap, Bool.or_eq_true, beq_iff_eq] at hc
    rcases hc with ((rfl | rfl) | rfl) | rfl <;> exact absurd hdigit (by decide)
  have hminus : c ≠ '-' := by
    rintro rfl
    exact absurd hdigit (by decide)
  have hany : anyNumber expected (Nat.toDigits 10 n ++ rest) = .ok (.natural n, rest) := by
    have hnumber := number_toDigits hn hrest
    unfold anyNumber
    rw [hdigits] at hnumber ⊢
    simp only [List.cons_append, skipGap, List.dropWhile_cons, hgap, Bool.false_eq_true, if_false]
    rw [if_pos hdigit]
    exact hnumber
  unfold natural
  simp [hany, hbound]

end FlowControl.Json
