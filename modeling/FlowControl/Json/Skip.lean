import FlowControl.Json.Lexeme

/-!
# Passing over a value nobody asked for

A member whose name is unknown may hold any well-formed value.  It is scanned
for its notation only: escapes need not name a character and numbers may be of
any size.  Fuel bounds the nesting and is computed from the length of the text.
-/

namespace FlowControl.Json

/-- Passes over digits, one at least. -/
def skipDigits (s : List Char) : Except Fault (List Char) :=
  match digitRun s with
  | ([], _) => .error .invalidNumber
  | (_, rest) => .ok rest

/-- Passes over a fraction, if there is one. -/
def skipFraction : List Char → Except Fault (List Char)
  | '.' :: s => skipDigits s
  | s => .ok s

/-- Passes over an exponent, if there is one. -/
def skipExponent : List Char → Except Fault (List Char)
  | 'e' :: s => skipDigits (splitSign s).2
  | 'E' :: s => skipDigits (splitSign s).2
  | s => .ok s

/-- Passes over a number behind its minus sign, if it had one. -/
def skipNumber (s : List Char) : Except Fault (List Char) :=
  match digitRun s with
  | ([], _) => .error .invalidNumber
  | ('0' :: _ :: _, _) => .error .invalidNumber
  | (_, rest) => skipFraction rest >>= skipExponent

mutual

/-- Passes over one value. -/
def skipValueWith : Nat → List Char → Except Fault (List Char)
  | 0, _ => .error .endsInValue
  | fuel + 1, s =>
    match skipGap s with
    | [] => .error .endsInValue
    | 'n' :: s => (word ['u', 'l', 'l'] s).map Prod.snd
    | 't' :: s => (word ['r', 'u', 'e'] s).map Prod.snd
    | 'f' :: s => (word ['a', 'l', 's', 'e'] s).map Prod.snd
    | '-' :: s => skipNumber s
    | '"' :: s => skipString s
    | '[' :: s => skipItemsWith fuel false s
    | '\x7b' :: s => skipMembersWith fuel false s
    | c :: s => if c.isDigit then skipNumber (c :: s) else .error .expectedValue

/-- Passes over the items of a list up to its end; `later` once one was read. -/
def skipItemsWith : Nat → Bool → List Char → Except Fault (List Char)
  | 0, _, _ => .error .endsInValue
  | fuel + 1, later, s =>
    match later, skipGap s with
    | _, [] => .error .endsInList
    | _, ']' :: s => .ok s
    | true, ',' :: s => do
      let s ← skipValueWith fuel s
      skipItemsWith fuel true s
    | true, _ => .error .expectedListEnd
    | false, s => do
      let s ← skipValueWith fuel s
      skipItemsWith fuel true s

/-- Passes over the members of an object up to its end; `later` once one was read. -/
def skipMembersWith : Nat → Bool → List Char → Except Fault (List Char)
  | 0, _, _ => .error .endsInValue
  | fuel + 1, later, s =>
    match later, skipGap s with
    | _, [] => .error .endsInObject
    | _, '\x7d' :: s => .ok s
    | true, ',' :: s => skipMemberWith fuel s
    | true, _ => .error .expectedObjectEnd
    | false, s => skipMemberWith fuel s

/-- Passes over one member and all that follow it in the object. -/
def skipMemberWith : Nat → List Char → Except Fault (List Char)
  | 0, _ => .error .endsInValue
  | fuel + 1, s =>
    match skipGap s with
    | [] => .error .endsInObject
    | '"' :: s => do
      let s ← skipString s
      match skipGap s with
      | [] => .error .endsInObject
      | ':' :: s => do
        let s ← skipValueWith fuel s
        skipMembersWith fuel true s
      | _ => .error .expectedColon
    | _ => .error .keyMustBeString

end

/-- Passes over one value of any form. -/
def skipValue (s : List Char) : Except Fault (List Char) :=
  skipValueWith (3 * s.length + 3) s

end FlowControl.Json
