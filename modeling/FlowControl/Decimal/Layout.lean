import FlowControl.Decimal.Shortest

/-!
# Floats as text

Two layouts of the shortest digits are written: the plain one, which never uses
an exponent, and the one of interchange text, which keeps a fractional part and
turns to a signed exponent outside `10 ^ -5 .. 10 ^ 16`.
A third function rounds to a whole number.
-/

namespace FlowControl.Decimal

/-- A run of zeros. -/
def zeros (n : Nat) : List Char := List.replicate n '0'

/-- Digits with the last one at `10 ^ e`, written without an exponent. -/
def positional (ds : List Char) (e : Int) : List Char :=
  if 0 ≤ e then ds ++ zeros e.natAbs
  else if e.natAbs < ds.length then
    ds.take (ds.length - e.natAbs) ++ '.' :: ds.drop (ds.length - e.natAbs)
  else '0' :: '.' :: zeros (e.natAbs - ds.length) ++ ds

/-- The minus sign of a negative number. -/
def sign (negative : Bool) : List Char := if negative then ['-'] else []

/-- Plain text: shortest digits, never an exponent, no forced fraction. -/
def plainText (x : Float) : String :=
  match Binary.ofFloat x with
  | .notANumber => "NaN"
  | .infinite negative => String.ofList (sign negative ++ ['i', 'n', 'f'])
  | .finite negative m q =>
    let (ds, e) := shortest m q .up
    String.ofList (sign negative ++ positional ds e)

/-- An exponent with its sign. -/
def exponentText (e : Int) : List Char :=
  (if e < 0 then '-' else '+') :: Nat.toDigits 10 e.natAbs

/-- Interchange text of a finite float: a fraction is always written, and an
exponent outside the range of readable magnitudes. -/
def interchangeText (x : Float) : String :=
  match Binary.ofFloat x with
  | .finite negative m q =>
    let (ds, e) := shortest m q .even
    let lead := e + ds.length - 1
    let body :=
      if -5 ≤ lead ∧ lead ≤ 15 then
        if 0 ≤ e then positional ds e ++ ['.', '0'] else positional ds e
      else
        ds.take 1 ++ (if ds.length = 1 then [] else '.' :: ds.drop 1) ++ 'e' :: exponentText lead
    String.ofList (sign negative ++ body)
  | _ => "null"

/-- The nearest whole number as text, a half to the even neighbour. -/
def wholeText (x : Float) : String :=
  match Binary.ofFloat x with
  | .notANumber => "NaN"
  | .infinite negative => String.ofList (sign negative ++ ['i', 'n', 'f'])
  | .finite negative m q =>
    let (num, den) := fraction m q
    String.ofList (sign negative ++ Nat.toDigits 10 (roundHalfEven num den))

end FlowControl.Decimal
