import FlowControl.Decimal.Shortest
import FlowControl.Duration

/-!
# A span of time in a message

Messages write a span in the largest of seconds, milliseconds, microseconds and
nanoseconds that it reaches, with its exact fraction and no trailing zeros.
-/

namespace FlowControl.Duration

/-- A fraction of `width` decimal places, without trailing zeros and with its point. -/
def fractionText (width n : Nat) : List Char :=
  let ds := Nat.toDigits 10 n
  let kept := Decimal.dropTrailingZeros (List.replicate (width - ds.length) '0' ++ ds)
  if kept.isEmpty then [] else '.' :: kept

/-- The span in units of `10 ^ width` nanoseconds. -/
def inUnit (d : Duration) (width : Nat) (unit : String) : String :=
  toString (d.nanos / Nat.pow 10 width) ++
    String.ofList (fractionText width (d.nanos % Nat.pow 10 width)) ++ unit

/-- The span as messages write it. -/
def text (d : Duration) : String :=
  if 1000000000 ≤ d.nanos then d.inUnit 9 "s"
  else if 1000000 ≤ d.nanos then d.inUnit 6 "ms"
  else if 1000 ≤ d.nanos then d.inUnit 3 "µs"
  else d.inUnit 0 "ns"

end FlowControl.Duration
