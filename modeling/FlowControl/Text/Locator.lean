import FlowControl.Text.Hex

/-!
# Locators: a scheme, an authority, a path and a query

A locator begins with a scheme and a colon.  After two slashes follows an authority: a
user and a password before the last at sign, then a host, and the number of an endpoint
behind a colon.  A host in brackets is an address of eight groups.  The path ends at the
query and the query at the fragment; steps up and dots are taken out of a path.
-/

namespace FlowControl.Text

/-! ## Hosts -/

/-- Is a text a decimal number below 256 without a leading zero? -/
def isOctetText (s : String) : Bool :=
  let ds := s.toList
  !ds.isEmpty && ds.all Char.isDigit && (ds.length == 1 || ds.head? != some '0') &&
    decide (Nat.ofDigitChars 10 ds 0 < 256)

/-- Is a text four such numbers with dots between them? -/
def isDottedAddress (s : List Char) : Bool :=
  let parts := (String.ofList s).splitOn "."
  parts.length == 4 && parts.all isOctetText

/-- Is a text the end of an address that has room for some groups?  A gap fills the room that
is left, and the last two groups may be a dotted address. -/
def isGroups : (room : Nat) → (gap : Bool) → List Char → Bool
  | 0, _, s => s.isEmpty
  | _ + 1, gap, [] => gap
  | room + 1, gap, ':' :: s => !gap && isGroups room true s
  | room + 1, gap, s =>
    let group := (s.take 4).takeWhile isHexDigit
    !group.isEmpty && match s.drop group.length with
      | [] => gap || room == 0
      | ':' :: c :: rest => isGroups room gap (c :: rest)
      | '.' :: _ => isDottedAddress s && (room == 1 || (gap && room ≠ 0))
      | _ => false

/-- Is a text an address of eight groups? -/
def isGroupedAddress : List Char → Bool
  | ':' :: ':' :: s => isGroups 7 true s
  | ':' :: _ => false
  | s => isGroups 8 false s

/-- May a character not stand in a host outside of brackets? -/
def isForbiddenInHost (c : Char) : Bool :=
  c ∈ ['\x00', ' ', '<', '>', '[', '\\', ']', '^', '|', '@', ':', '/', '?', '#']

/-- Is a text a host? -/
def isHost : List Char → Bool
  | '[' :: s => s.getLast? == some ']' && isGroupedAddress s.dropLast
  | s => !s.any isForbiddenInHost

/-- Splits a text at the first colon that is not in brackets; the colon stays behind. -/
def splitHost : (bracketed : Bool) → List Char → List Char × List Char
  | _, [] => ([], [])
  | bracketed, c :: s =>
    if c = ':' ∧ !bracketed then ([], c :: s)
    else
      let (host, rest) := splitHost (c = '[' || (bracketed && c != ']')) s
      (c :: host, rest)

/-! ## Paths -/

/-- Does a step of a path go up? -/
def isStepUp (step : String) : Bool :=
  ["..", "%2e%2e", "%2e.", ".%2e"].contains (step.map Char.toLower)

/-- Does a step of a path stay? -/
def isStepNowhere (step : String) : Bool := [".", "%2e"].contains (step.map Char.toLower)

/-- Is a step of a path a letter with a colon or bar, as drives are named?  No step goes up
from there. -/
def isDrive (step : String) : Bool :=
  match step.toList with
  | [c, d] => c.isAlpha && (d = ':' || d = '|')
  | _ => false

/-- The steps of a path without those that go up or nowhere; the steps so far come last
first. -/
def resolvedSteps : (kept : List String) → List String → List String
  | kept, [] => kept.reverse
  | kept, step :: steps =>
    let here := if steps.isEmpty then [""] else []
    if isStepUp step then
      let kept := match kept with
        | last :: before => if isDrive last then last :: before else before
        | [] => []
      resolvedSteps (here ++ kept) steps
    else if isStepNowhere step then resolvedSteps (here ++ kept) steps
    else resolvedSteps (step :: kept) steps

/-- The steps of the path that follows a slash. -/
def stepsOf (s : List Char) : List String :=
  resolvedSteps [] ((String.ofList s).splitOn "/")

/-! ## Locators -/

/-- A locator.  The user and password are as written, and no host is an empty one; a path
without steps does not begin with a slash. -/
structure Locator where
  scheme : String
  user : List Char
  password : List Char
  host : List Char
  endpoint : Option Nat
  steps : List String
  query : List Char
  deriving DecidableEq, Repr

namespace Locator

/-- A text without tabs and line ends, and without blanks and control characters around it. -/
def trimmed (s : List Char) : List Char :=
  let isEdge := fun c : Char => c.toNat ≤ 0x20
  let inner := ((s.dropWhile isEdge).reverse.dropWhile isEdge).reverse
  inner.filter fun c => c != '\t' && c != '\n' && c != '\r'

/-- The scheme before the first colon, in small letters, and what follows. -/
def scheme? (s : List Char) : Option (String × List Char) :=
  match s.span (· != ':') with
  | (c :: cs, ':' :: rest) =>
    if c.isAlpha && cs.all (fun c => c.isAlphanum || c == '+' || c == '-' || c == '.') then
      some (String.ofList ((c :: cs).map Char.toLower), rest)
    else none
  | _ => none

/-- Does a character end an authority? -/
def endsAuthority (c : Char) : Bool := c == '/' || c == '?' || c == '#'

/-- Does a character end a path? -/
def endsPath (c : Char) : Bool := c == '?' || c == '#'

/-- The query at the start of a text, up to the fragment. -/
def queryOf : List Char → List Char
  | '?' :: s => s.takeWhile (· != '#')
  | _ => []

/-- The user and the password of an authority, and what follows the last at sign. -/
def splitUser (s : List Char) : List Char × List Char × List Char :=
  if s.contains '@' then
    let host := (s.reverse.takeWhile (· != '@')).reverse
    let (user, password) := (s.take (s.length - host.length - 1)).span (· != ':')
    (user, password.drop 1, host)
  else ([], [], s)

/-- The number of an endpoint, and what follows its digits; no digits are no number. -/
def endpoint? (s : List Char) : Option (Option Nat × List Char) :=
  let digits := s.takeWhile Char.isDigit
  let number := Nat.ofDigitChars 10 digits 0
  match s.dropWhile Char.isDigit with
  | [] | '\\' :: _ =>
    if number < 65536 then
      some (if digits.isEmpty then none else some number, s.drop digits.length)
    else none
  | _ => none

/-- The steps and the query of what follows an authority. -/
def stepsAndQuery (s : List Char) : List String × List Char :=
  let path := s.takeWhile (!endsPath ·)
  let query := queryOf (s.dropWhile (!endsPath ·))
  match path with
  | [] => ([], query)
  | '/' :: path => (stepsOf path, query)
  | path => (stepsOf path, query)

/-- A locator from its scheme and what follows two slashes. -/
def ofAuthority? (scheme : String) (s : List Char) : Option Locator := do
  let authority := s.takeWhile (!endsAuthority ·)
  let behind := s.dropWhile (!endsAuthority ·)
  let (user, password, place) := splitUser authority
  let (host, rest) := splitHost false place
  let isBare := user.isEmpty && password.isEmpty && rest.isEmpty
  if authority == ['@'] && !behind.isEmpty then none
  if !isHost host || (host.isEmpty && !isBare) then none
  let (endpoint, rest) ← endpoint? (rest.drop 1)
  let (steps, query) := stepsAndQuery (rest ++ behind)
  some ⟨scheme, user, password, host, endpoint, steps, query⟩

/-- A locator from its scheme and what follows the colon. -/
def ofScheme? (scheme : String) : List Char → Option Locator
  | '/' :: '/' :: s => ofAuthority? scheme s
  | '/' :: s =>
    let (steps, query) := stepsAndQuery ('/' :: s)
    some ⟨scheme, [], [], [], none, steps, query⟩
  | s => some ⟨scheme, [], [], [], none, [], queryOf (s.dropWhile (!endsPath ·))⟩

/-- The locator that a text is. -/
def parse? (text : String) : Option Locator :=
  scheme? (trimmed text.toList) >>= fun (scheme, rest) => ofScheme? scheme rest

end Locator

end FlowControl.Text
