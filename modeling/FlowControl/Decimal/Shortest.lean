import FlowControl.Decimal.Binary

/-!
# The shortest decimal that reads back

A float owns the interval of reals that round to it, ends included when its
mantissa is even.  For 1, 2, ... 17 digits the two decimals of that many digits
around the float are tested against the interval; the first count with a hit
wins, and of two hits the nearer.  An exact tie between the two is decided by
the caller.  All comparisons are between natural numbers.
-/

namespace FlowControl.Decimal

/-- A decimal `digits * 10 ^ exponent`. -/
structure Scientific where
  digits : Nat
  exponent : Int
  deriving DecidableEq, Repr

/-- Which neighbour wins when a float lies exactly between two shortest decimals. -/
inductive Tie where
  | up
  | even
  deriving DecidableEq, Repr

/-- The interval of reals that round to a float, over the denominator `4 * den`. -/
structure Interval where
  low : Nat
  value : Nat
  high : Nat
  den : Nat
  closed : Bool

namespace Interval

/-- The interval of `m * 2 ^ q`: half a step to each side, a quarter step below a
power of two, where the next smaller float is nearer. -/
def ofBinary (m : Nat) (q : Int) : Interval :=
  let (num, den) := fraction m q
  let unit := num / m
  let below := if m = 4503599627370496 ∧ -1074 < q then unit else 2 * unit
  ⟨4 * num - below, 4 * num, 4 * num + 2 * unit, 4 * den, m % 2 = 0⟩

/-- `a / b ≤ c / d` over natural numbers, strict unless `closed`. -/
def ordered (closed : Bool) (a b c d : Nat) : Bool :=
  if closed then a * d ≤ c * b else a * d < c * b

/-- Does the fraction `n / d` lie in the interval? -/
def contains (i : Interval) (n d : Nat) : Bool :=
  ordered i.closed i.low i.den n d && ordered i.closed n d i.high i.den

/-- The least `k` with the value below `10 ^ k`. -/
def magnitude (i : Interval) : Int :=
  let k : Int := ((Nat.toDigits 10 i.value).length : Int) - (Nat.toDigits 10 i.den).length
  let below : Bool := if 0 ≤ k then i.value < i.den * Nat.pow 10 k.natAbs
    else i.value * Nat.pow 10 k.natAbs < i.den
  if below then k else k + 1

/-- The decimal of `n` digits that reads back as the value, if there is one. -/
def atLength (i : Interval) (tie : Tie) (n : Nat) : Option Scientific :=
  let g := i.magnitude - n
  let up := if 0 ≤ g then Nat.pow 10 g.natAbs else 1
  let down := if 0 ≤ g then 1 else Nat.pow 10 g.natAbs
  -- the value is `num / den` steps of the decimal grid
  let num := i.value * down
  let den := i.den * up
  let a := num / den
  let lowFits := a != 0 && i.contains (a * up) down
  let highFits := i.contains ((a + 1) * up) down
  let rest := 2 * (num % den)
  let preferHigh := den < rest || (rest == den && (tie == .up || a % 2 == 1))
  if lowFits && highFits then some ⟨if preferHigh then a + 1 else a, g⟩
  else if lowFits then some ⟨a, g⟩
  else if highFits then some ⟨a + 1, g⟩
  else none

end Interval

/-- Removes the trailing zeros of a digit string. -/
def dropTrailingZeros (ds : List Char) : List Char :=
  (ds.reverse.dropWhile (· == '0')).reverse

/-- The digits of the shortest decimal and the power of ten of the last digit. -/
def shortest (m : Nat) (q : Int) (tie : Tie) : List Char × Int :=
  if m = 0 then (['0'], 0)
  else
    let i := Interval.ofBinary m q
    match (List.range 17).findSome? (fun n => i.atLength tie (n + 1)) with
    | none => (['0'], 0)
    | some s =>
      let all := Nat.toDigits 10 s.digits
      let kept := dropTrailingZeros all
      (kept, s.exponent + ((all.length : Int) - kept.length))

end FlowControl.Decimal
