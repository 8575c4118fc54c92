import FlowControl.Word

/-!
# Spans of time

A duration is a whole number of nanoseconds up to the largest span that 64-bit
seconds carry.  Constructors stop at that span, so no operation overflows.
Whole milliseconds are what clocks and stores count; `ticks` rounds up to them
and `millis` rounds down.  A timer for a span beyond all clocks is set to thirty years.
-/

namespace FlowControl

/-- The largest span, in nanoseconds. -/
def Duration.maxNanos : Nat := Word.maxNat * 1000000000 + 999999999

/-- A span of time in whole nanoseconds. -/
structure Duration where
  nanos : Nat
  nanos_le : nanos ≤ Duration.maxNanos
  deriving DecidableEq, Repr

namespace Duration

@[ext] theorem ext {a b : Duration} (h : a.nanos = b.nanos) : a = b := by
  cases a
  cases b
  simp_all

/-- A span of `n` nanoseconds, or the largest span if `n` is larger. -/
def ofNanos (n : Nat) : Duration :=
  ⟨min n maxNanos, Nat.min_le_right ..⟩

/-- A span of whole milliseconds. -/
def ofMillis (n : Nat) : Duration := ofNanos (n * 1000000)

/-- A span of whole seconds. -/
def ofSecs (n : Nat) : Duration := ofNanos (n * 1000000000)

/-- The empty span. -/
def zero : Duration := ofNanos 0

instance : Inhabited Duration := ⟨zero⟩

/-- Is the span empty? -/
def isZero (d : Duration) : Bool := d.nanos == 0

instance : LE Duration := ⟨fun a b => a.nanos ≤ b.nanos⟩

instance : LT Duration := ⟨fun a b => a.nanos < b.nanos⟩

instance (a b : Duration) : Decidable (a ≤ b) := inferInstanceAs (Decidable (a.nanos ≤ b.nanos))

instance (a b : Duration) : Decidable (a < b) := inferInstanceAs (Decidable (a.nanos < b.nanos))

instance : Min Duration := ⟨fun a b => if a ≤ b then a else b⟩

/-- A sum that stops at the largest span. -/
def add (a b : Duration) : Duration := ofNanos (a.nanos + b.nanos)

/-- A difference that stops at zero. -/
def sub (a b : Duration) : Duration := ofNanos (a.nanos - b.nanos)

/-- A multiple that stops at the largest span. -/
def scale (d : Duration) (k : Nat) : Duration := ofNanos (d.nanos * k)

/-- Whole milliseconds, rounded down. -/
def millis (d : Duration) : Nat := d.nanos / 1000000

/-- Whole milliseconds as a word, the largest word if there are more. -/
def millisWord (d : Duration) : UInt64 := Word.clamp d.millis

/-- The low 64 bits of the whole milliseconds, as event fields report them. -/
def millisLow (d : Duration) : UInt64 := UInt64.ofNat d.millis

/-- Whole seconds. -/
def secs (d : Duration) : Nat := d.nanos / 1000000000

/-- Nanoseconds beyond the whole seconds. -/
def subsecNanos (d : Duration) : Nat := d.nanos % 1000000000

/-- No clock runs for as many seconds as this. -/
def clockSecs : Nat := 9223372036854775807

/-- The milliseconds of thirty years, which stand for a wait that no clock can measure. -/
def farTicks : Nat := 946080000000

/-- After how many milliseconds a timer for this span fires: the whole milliseconds, rounded
up, unless no clock runs that long. -/
def ticks (d : Duration) : Nat :=
  if d.secs < clockSecs then (d.nanos + 999999) / 1000000 else farTicks

/-- The sum of a list of spans. -/
def total (ds : List Duration) : Duration := ds.foldl add zero

@[simp] theorem nanos_ofNanos (n : Nat) : (ofNanos n).nanos = min n maxNanos := rfl

theorem nanos_ofNanos_of_le {n : Nat} (h : n ≤ maxNanos) : (ofNanos n).nanos = n :=
  Nat.min_eq_left h

@[simp] theorem nanos_zero : zero.nanos = 0 := rfl

@[simp] theorem isZero_iff (d : Duration) : d.isZero = true ↔ d.nanos = 0 := by
  simp [isZero]

theorem le_iff (a b : Duration) : a ≤ b ↔ a.nanos ≤ b.nanos := Iff.rfl

theorem lt_iff (a b : Duration) : a < b ↔ a.nanos < b.nanos := Iff.rfl

@[simp] theorem nanos_min (a b : Duration) : (min a b).nanos = min a.nanos b.nanos := by
  show (if a ≤ b then a else b).nanos = _
  split
  · next h => exact (Nat.min_eq_left h).symm
  · next h => exact (Nat.min_eq_right (Nat.le_of_not_le h)).symm

@[simp] theorem nanos_add (a b : Duration) :
    (add a b).nanos = min (a.nanos + b.nanos) maxNanos := rfl

@[simp] theorem nanos_sub (a b : Duration) : (sub a b).nanos = a.nanos - b.nanos := by
  have := a.nanos_le
  simp only [sub, nanos_ofNanos]
  omega

@[simp] theorem toNat_millisWord (d : Duration) :
    d.millisWord.toNat = min d.millis Word.maxNat := by
  simp [millisWord]

theorem secs_le (d : Duration) : d.secs ≤ Word.maxNat := by
  have h := d.nanos_le
  have hs : maxNanos = 18446744073709551615999999999 := rfl
  have hw : Word.maxNat = 18446744073709551615 := rfl
  unfold secs
  omega

theorem secs_subsecNanos (d : Duration) : d.secs * 1000000000 + d.subsecNanos = d.nanos := by
  simp only [secs, subsecNanos]
  omega

end Duration

end FlowControl
