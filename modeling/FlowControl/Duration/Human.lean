import FlowControl.Duration
import FlowControl.Text.Blank

/-!
# Spans of time as people write them

`1h 30m`, `2.5s`, `100ms`: groups of a number and a unit, added up.  Blanks may
stand anywhere but inside a unit.  A fraction must come out whole, in nanoseconds
for units up to minutes and in seconds above.  Every intermediate value must fit
64 bits.  The writer gives each non-zero part from years to nanoseconds.
-/

namespace FlowControl.Duration.Human

/-- The units of the notation, smallest first. -/
inductive Scale where
  | nanosecond
  | microsecond
  | millisecond
  | second
  | minute
  | hour
  | day
  | week
  | month
  | year
  deriving DecidableEq, Repr

namespace Scale

/-- Seconds in a unit of a second or more: a month is 30.44 days, a year 365.25. -/
def seconds : Scale → Nat
  | .second => 1
  | .minute => 60
  | .hour => 3600
  | .day => 86400
  | .week => 604800
  | .month => 2630016
  | .year => 31557600
  | _ => 0

/-- Nanoseconds in a unit. -/
def nanos : Scale → Nat
  | .nanosecond => 1
  | .microsecond => 1000
  | .millisecond => 1000000
  | s => s.seconds * 1000000000

/-- Is the unit counted in nanoseconds while it is read? -/
def isSubsecond : Scale → Bool
  | .nanosecond | .microsecond | .millisecond => true
  | _ => false

/-- Must a fraction of the unit come out in whole nanoseconds, not whole seconds? -/
def fractionInNanos : Scale → Bool
  | .nanosecond | .microsecond | .millisecond | .second | .minute => true
  | _ => false

/-- The spellings of the units. -/
def spellings : List (String × Scale) :=
  [("nanos", .nanosecond), ("nsec", .nanosecond), ("ns", .nanosecond),
   ("usec", .microsecond), ("us", .microsecond), ("µs", .microsecond),
   ("millis", .millisecond), ("msec", .millisecond), ("ms", .millisecond),
   ("seconds", .second), ("second", .second), ("secs", .second), ("sec", .second),
   ("s", .second),
   ("minutes", .minute), ("minute", .minute), ("min", .minute), ("mins", .minute),
   ("m", .minute),
   ("hours", .hour), ("hour", .hour), ("hr", .hour), ("hrs", .hour), ("h", .hour),
   ("days", .day), ("day", .day), ("d", .day),
   ("weeks", .week), ("week", .week), ("wk", .week), ("wks", .week), ("w", .week),
   ("months", .month), ("month", .month), ("M", .month),
   ("years", .year), ("year", .year), ("yr", .year), ("yrs", .year), ("y", .year)]

/-- The unit of a spelling. -/
def ofChars? (cs : List Char) : Option Scale :=
  (spellings.find? (fun p => p.1.toList == cs)).map Prod.snd

end Scale

/-! ## Reading -/

/-- May the character stand in a unit? -/
def isUnitChar (c : Char) : Bool := c.isAlpha || c == 'µ'

/-- The value if it fits 64 bits. -/
def fits (n : Nat) : Option Nat := if n ≤ Word.maxNat then some n else none

/-- Adds seconds and nanoseconds to a sum, each step within 64 bits. -/
def addParts (sum : Duration) (secs nanos : Nat) : Option Duration := do
  let n ← fits (sum.subsecNanos + nanos)
  let s ← fits (sum.secs + secs + n / 1000000000)
  return ofNanos (s * 1000000000 + n % 1000000000)

/-- A fraction `numerator / denominator`, the denominator a power of ten. -/
structure Fraction where
  numerator : Nat
  denominator : Nat

/-- Adds a whole number of units. -/
def addWhole (sum : Duration) (n : Nat) (unit : Scale) : Option Duration :=
  if unit.isSubsecond then do addParts sum 0 (← fits (n * unit.nanos))
  else do addParts sum (← fits (n * unit.seconds)) 0

/-- Adds a fraction of a unit. -/
def addFraction (sum : Duration) (f : Fraction) (unit : Scale) : Option Duration :=
  if unit = .nanosecond then none
  else if unit.fractionInNanos then do
    let n ← fits (f.numerator * unit.nanos)
    if n % f.denominator = 0 then addParts sum 0 (n / f.denominator) else none
  else do
    let n ← fits (f.numerator * unit.seconds)
    if n % f.denominator = 0 then addParts sum (n / f.denominator) 0 else none

/-- Adds one group. -/
def addGroup (sum : Duration) (n : Nat) (f : Option Fraction) (unit : List Char) :
    Option Duration := do
  let unit ← Scale.ofChars? unit
  let sum ← addWhole sum n unit
  match f with
  | none => some sum
  | some f => addFraction sum f unit

/-- Digits with blanks among them, up to the first other character. -/
def digitsAndBlanks (s : List Char) : List Char × List Char :=
  let stays := fun c : Char => c.isDigit || Text.isBlank c
  ((s.takeWhile stays).filter Char.isDigit, s.dropWhile stays)

/-- The fraction behind a point. -/
def fractionOf (ds : List Char) : Option Fraction := do
  let denominator ← fits (Nat.pow 10 ds.length)
  if ds.isEmpty then none
  else return ⟨Nat.ofDigitChars 10 ds 0, denominator⟩

/-- Number and fraction of a group that starts with a digit, and what follows. -/
def amount (s : List Char) : Option (Nat × Option Fraction × List Char) := do
  let (ds, rest) := digitsAndBlanks s
  let n ← fits (Nat.ofDigitChars 10 ds 0)
  match rest with
  | '.' :: more =>
    let (fs, rest) := digitsAndBlanks more
    let f ← fractionOf fs
    return (n, some f, rest)
  | rest => return (n, none, rest)

/-- Adds up groups; each one starts with a digit, blanks before it aside. -/
def groups : Nat → Duration → List Char → Option Duration
  | 0, _, _ => none
  | fuel + 1, sum, s =>
    match s.dropWhile Text.isBlank with
    | [] => some sum
    | c :: s =>
      if c.isDigit then do
        let (n, f, s) ← amount (c :: s)
        let unit := s.takeWhile isUnitChar
        let sum ← addGroup sum n f unit
        match s.dropWhile isUnitChar with
        | [] => some sum
        | c :: s =>
          if c.isDigit || Text.isBlank c then groups fuel sum (c :: s) else none
      else none

/-- The span of a text of at least one group; a lone zero needs no unit. -/
def parse (s : List Char) : Option Duration :=
  if s = ['0'] then some zero
  else if s.all Text.isBlank then none
  else groups (s.length + 1) zero s

/-! ## Writing -/

/-- One part with a unit that takes a plural. -/
def counted (n : Nat) (unit : String) : List (List Char) :=
  if n = 0 then []
  else [Nat.toDigits 10 n ++ unit.toList ++ (if 1 < n then ['s'] else [])]

/-- One part with a short unit. -/
def part (n : Nat) (unit : String) : List (List Char) :=
  if n = 0 then [] else [Nat.toDigits 10 n ++ unit.toList]

/-- The non-zero parts of a span, largest first. -/
def parts (d : Duration) : List (List Char) :=
  let secs := d.secs
  let nanos := d.subsecNanos
  let inYear := secs % 31557600
  let inMonth := inYear % 2630016
  let inDay := inMonth % 86400
  counted (secs / 31557600) "year" ++
    counted (inYear / 2630016) "month" ++
    counted (inMonth / 86400) "day" ++
    part (inDay / 3600) "h" ++
    part (inDay % 3600 / 60) "m" ++
    part (inDay % 60) "s" ++
    part (nanos / 1000000) "ms" ++
    part (nanos / 1000 % 1000) "us" ++
    part (nanos % 1000) "ns"

/-- The span in the notation that `parse` reads. -/
def format (d : Duration) : List Char :=
  if d.isZero then ['0', 's'] else [' '].intercalate (parts d)

end FlowControl.Duration.Human
