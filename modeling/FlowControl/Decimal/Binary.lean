/-!
# Binary floating-point numbers as exact fractions

A finite 64-bit float is `mantissa * 2 ^ exponent` with a sign.  Everything that
writes a float in decimal works on this exact view, in natural numbers.
-/

namespace FlowControl.Decimal

/-- What a 64-bit float stands for. -/
inductive Binary where
  | notANumber
  | infinite (negative : Bool)
  | finite (negative : Bool) (mantissa : Nat) (exponent : Int)
  deriving DecidableEq, Repr

namespace Binary

/-- Reads sign, exponent field and fraction field of the 64 bits. -/
def ofBits (bits : UInt64) : Binary :=
  let n := bits.toNat
  let negative := n / 9223372036854775808 == 1
  let field : Nat := n / 4503599627370496 % 2048
  let fraction : Nat := n % 4503599627370496
  if field = 2047 then
    if fraction = 0 then .infinite negative else .notANumber
  else if field = 0 then .finite negative fraction (-1074)
  else .finite negative (4503599627370496 + fraction) ((field : Int) - 1075)

/-- The exact value of a float. -/
def ofFloat (x : Float) : Binary := ofBits x.toBits

end Binary

/-- Numerator and denominator of `m * 2 ^ q`. -/
def fraction (m : Nat) (q : Int) : Nat × Nat :=
  if q < 0 then (m, Nat.pow 2 q.natAbs) else (m * Nat.pow 2 q.natAbs, 1)

/-- A quotient rounded to the nearest integer, a half to the even neighbour. -/
def roundHalfEven (num den : Nat) : Nat :=
  let low := num / den
  let rest := 2 * (num % den)
  if rest < den then low
  else if den < rest then low + 1
  else if low % 2 = 0 then low else low + 1

end FlowControl.Decimal
