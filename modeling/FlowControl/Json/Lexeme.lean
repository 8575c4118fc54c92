import FlowControl.Decimal.Layout
import FlowControl.Json.Fault
import FlowControl.Text.Hex
import FlowControl.Word

/-!
# The smallest parts of a text: blanks, words, strings and numbers

Each reader takes its part off the front of the remaining characters.  A number
keeps the digits that fit a 64-bit word; further digits only shift its power of
ten, and the float is then scaled in one step, or in steps of `10 ^ 308` below.
-/

namespace FlowControl.Json

/-- The four blanks between the parts of a text. -/
def isGap (c : Char) : Bool := c == ' ' || c == '\n' || c == '\t' || c == '\r'

/-- Drops leading blanks. -/
def skipGap (s : List Char) : List Char := s.dropWhile isGap

/-- Reads the rest of a fixed word. -/
def word : List Char → Reader Unit
  | [], s => .ok ((), s)
  | _ :: _, [] => .error .endsInValue
  | c :: cs, d :: s => if c = d then word cs s else .error .expectedIdent

/-! ## Strings -/

/-- Four hexadecimal digits, as one 16-bit unit. -/
def hexUnit : Reader Nat
  | a :: b :: c :: d :: s =>
    match Text.hexDigit? a, Text.hexDigit? b, Text.hexDigit? c, Text.hexDigit? d with
    | some x, some y, some z, some w => .ok (((x * 16 + y) * 16 + z) * 16 + w, s)
    | _, _, _, _ => .error .invalidEscape
  | s => if 4 ≤ (String.ofList s).utf8ByteSize then .error .invalidEscape else .error .endsInString

/-- Is the unit the first half of a surrogate pair? -/
def isLeading (n : Nat) : Bool := 0xD800 ≤ n && n ≤ 0xDBFF

/-- Is the unit the second half of a surrogate pair? -/
def isTrailing (n : Nat) : Bool := 0xDC00 ≤ n && n ≤ 0xDFFF

/-- The character of a surrogate pair. -/
def pairChar (leading trailing : Nat) : Char :=
  Char.ofNat ((leading - 0xD800) * 0x400 + (trailing - 0xDC00) + 0x10000)

/-- The character of an escaped unit; a leading half needs its second half next. -/
def unitChar (s : List Char) : Except Fault (Char × List Char) :=
  match hexUnit s with
  | .error e => .error e
  | .ok (n, rest) =>
    if isTrailing n then .error .loneSurrogate
    else if isLeading n then
      match rest with
      | [] => .error .endsInString
      | ['\\'] => .error .endsInString
      | '\\' :: 'u' :: more =>
        match hexUnit more with
        | .error e => .error e
        | .ok (m, rest) =>
          if isTrailing m then .ok (pairChar n m, rest) else .error .loneSurrogate
      | _ => .error .brokenSurrogate
    else .ok (Char.ofNat n, rest)

/-- The character of a one-letter escape. -/
def letterEscape? : Char → Option Char
  | '"' => some '"'
  | '\\' => some '\\'
  | '/' => some '/'
  | 'b' => some '\x08'
  | 'f' => some '\x0c'
  | 'n' => some '\n'
  | 'r' => some '\r'
  | 't' => some '\t'
  | _ => none

/-- What follows a backslash, decoded. -/
def escape : Reader Char
  | [] => .error .endsInString
  | 'u' :: s => unitChar s
  | c :: s =>
    match letterEscape? c with
    | some d => .ok (d, s)
    | none => .error .invalidEscape

/-- What follows a backslash, checked for its form only. -/
def skipEscape : Reader Unit
  | [] => .error .endsInString
  | 'u' :: s => (hexUnit s).map fun (_, rest) => ((), rest)
  | c :: s =>
    match letterEscape? c with
    | some _ => .ok ((), s)
    | none => .error .invalidEscape

theorem hexUnit_length {s : List Char} {n : Nat} {rest : List Char}
    (h : hexUnit s = .ok (n, rest)) : rest.length < s.length := by
  unfold hexUnit at h
  split at h
  · split at h
    · cases h
      simp
      omega
    · cases h
  · split at h <;> cases h

theorem unitChar_length {s : List Char} {c : Char} {rest : List Char}
    (h : unitChar s = .ok (c, rest)) : rest.length < s.length := by
  unfold unitChar at h
  split at h
  · cases h
  · next n mid hn =>
    have hmid := hexUnit_length hn
    split at h
    · cases h
    · split at h
      · split at h
        · cases h
        · cases h
        · next more =>
          split at h
          · cases h
          · next m last hm =>
            have hlast := hexUnit_length hm
            split at h
            · simp only [Except.ok.injEq, Prod.mk.injEq] at h
              obtain ⟨_, rfl⟩ := h
              simp only [List.length_cons] at hmid
              omega
            · cases h
        · cases h
      · cases h
        exact hmid

theorem escape_length {s : List Char} {c : Char} {rest : List Char}
    (h : escape s = .ok (c, rest)) : rest.length < s.length := by
  unfold escape at h
  split at h
  · cases h
  · have := unitChar_length h
    simp
    omega
  · split at h
    · cases h
      simp
    · cases h

theorem skipEscape_length {s : List Char} {u : Unit} {rest : List Char}
    (h : skipEscape s = .ok (u, rest)) : rest.length < s.length := by
  unfold skipEscape at h
  split at h
  · cases h
  · next t =>
    cases hn : hexUnit t with
    | error e => simp [hn, Except.map] at h
    | ok p =>
      have : p.2.length < t.length := hexUnit_length hn
      simp only [hn, Except.map, Except.ok.injEq, Prod.mk.injEq, true_and] at h
      subst h
      simp
      omega
  · split at h
    · cases h
      simp
    · cases h

/-- The characters of a string, from behind its opening quote. -/
def string (s : List Char) : Except Fault (List Char × List Char) :=
  match s with
  | [] => .error .endsInString
  | '"' :: rest => .ok ([], rest)
  | '\\' :: more =>
    match _h : escape more with
    | .error e => .error e
    | .ok (c, rest) =>
      match string rest with
      | .error e => .error e
      | .ok (cs, rest) => .ok (c :: cs, rest)
  | c :: rest =>
    if c.toNat < 0x20 then .error .controlCharacter
    else
      match string rest with
      | .error e => .error e
      | .ok (cs, rest) => .ok (c :: cs, rest)
termination_by s.length
decreasing_by
  · have := escape_length _h
    simp
    omega
  · simp

/-- Passes over a string, from behind its opening quote. -/
def skipString (s : List Char) : Except Fault (List Char) :=
  match s with
  | [] => .error .endsInString
  | '"' :: rest => .ok rest
  | '\\' :: more =>
    match _h : skipEscape more with
    | .error e => .error e
    | .ok ((), rest) => skipString rest
  | c :: rest => if c.toNat < 0x20 then .error .controlCharacter else skipString rest
termination_by s.length
decreasing_by
  · have := skipEscape_length _h
    simp
    omega
  · simp

/-! ## Numbers -/

/-- A number as it was written: a word, a negative integer, or a float. -/
inductive Number where
  | natural (value : Nat)
  | negative (magnitude : Nat)
  | float (value : Float)

/-- How a number is named in a message. -/
def Number.found : Number → Found
  | .natural n => .integer n
  | .negative n => .integer (-n)
  | .float x => .float (Decimal.interchangeText x)

/-- Appends digits to a word while it still fits 64 bits; the digits left over come back. -/
def absorb (acc : Nat) : List Char → Nat × List Char
  | [] => (acc, [])
  | d :: ds =>
    let next := acc * 10 + (d.toNat - 48)
    if next ≤ Word.maxNat then absorb next ds else (acc, d :: ds)

/-- The power of ten as a float. -/
def pow10 (n : Nat) : Float := Float.ofScientific 1 false n

/-- Divides by `10 ^ 308` until the remaining exponent is within the table or nothing is left. -/
def scaleDown (f : Float) (e : Int) : Float × Int :=
  if h : e < -308 then
    if f == 0 then (f, 0) else scaleDown (f / pow10 308) (e + 308)
  else (f, e)
termination_by e.natAbs
decreasing_by omega

/-- A word scaled by a power of ten; a result beyond the floats is refused. -/
def scaled (digits : Nat) (e : Int) : Except Fault Float :=
  let (f, e) := scaleDown digits.toUInt64.toFloat e
  if e < 0 then .ok (f / pow10 e.natAbs)
  else if 308 < e then if f == 0 then .ok f else .error .numberOutOfRange
  else
    let g := f * pow10 e.natAbs
    if g.isInf then .error .numberOutOfRange else .ok g

/-- Splits off the leading digits. -/
def digitRun (s : List Char) : List Char × List Char :=
  (s.takeWhile Char.isDigit, s.dropWhile Char.isDigit)

/-- The value of a digit string. -/
def digitsValue (ds : List Char) : Nat := Nat.ofDigitChars 10 ds 0

/-- Splits off a sign; is it a minus? -/
def splitSign : List Char → Bool × List Char
  | '+' :: s => (false, s)
  | '-' :: s => (true, s)
  | s => (false, s)

/-- The signed exponent behind an `e`. -/
def exponent (s : List Char) : Except Fault (Int × List Char) :=
  match digitRun (splitSign s).2 with
  | ([], []) => .error .endsInValue
  | ([], _) => .error .invalidNumber
  | (ds, rest) =>
    let n : Int := digitsValue ds
    .ok (if (splitSign s).1 then -n else n, rest)

/-- Completes a float from its digits so far, its exponent so far and what follows. -/
def floatTail (negative : Bool) (digits : Nat) (e : Int) (s : List Char) :
    Except Fault (Number × List Char) :=
  let finish (e : Int) (rest : List Char) :=
    (scaled digits e).map fun f => (Number.float (if negative then -f else f), rest)
  match s with
  | 'e' :: s | 'E' :: s =>
    match exponent s with
    | .error fault => .error fault
    | .ok (x, rest) => finish (e + x) rest
  | s => finish e s

/-- A number whose integer digits were read: digits kept, digits dropped, what follows. -/
def numberTail (negative : Bool) (digits dropped : Nat) (s : List Char) :
    Except Fault (Number × List Char) :=
  match s with
  | '.' :: s =>
    match digitRun s with
    | ([], []) => .error .endsInValue
    | ([], _) => .error .invalidNumber
    | (ds, rest) =>
      let (digits, unread) := absorb digits ds
      let e : Int := (dropped : Int) - ((ds.length : Int) - unread.length)
      floatTail negative digits e rest
  | 'e' :: _ | 'E' :: _ => floatTail negative digits dropped s
  | s =>
    if 0 < dropped then floatTail negative digits dropped s
    else if !negative then .ok (.natural digits, s)
    else if 0 < digits ∧ digits ≤ 9223372036854775808 then .ok (.negative digits, s)
    else .ok (.float (-digits.toUInt64.toFloat), s)

/-- A number behind its minus sign, if it had one. -/
def number (negative : Bool) (s : List Char) : Except Fault (Number × List Char) :=
  match digitRun s with
  | ([], []) => .error .endsInValue
  | ([], _) => .error .invalidNumber
  | ('0' :: _ :: _, _) => .error .invalidNumber
  | (ds, rest) =>
    let (digits, unread) := absorb 0 ds
    numberTail negative digits unread.length rest

end FlowControl.Json
