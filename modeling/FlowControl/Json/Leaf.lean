import FlowControl.Json.Skip
import FlowControl.Text.Quoted

/-!
# Reading single values

A reader knows what it expects.  If another value starts there, that value is
read as far as its kind needs and the fault names it: numbers and strings in
full, lists and objects by their opening alone.
-/

namespace FlowControl.Json

/-- The fault of a value that is not what was expected; the text starts with it. -/
def mistyped {α : Type} (expected : String) (s : List Char) : Except Fault α :=
  let wrong (found : Found) : Except Fault α := .error (.invalidType found expected)
  match s with
  | [] => .error .expectedValue
  | 'n' :: s => word ['u', 'l', 'l'] s >>= fun _ => wrong .null
  | 't' :: s => word ['r', 'u', 'e'] s >>= fun _ => wrong (.bool true)
  | 'f' :: s => word ['a', 'l', 's', 'e'] s >>= fun _ => wrong (.bool false)
  | '-' :: s => number true s >>= fun (n, _) => wrong n.found
  | '"' :: s => string s >>= fun (cs, _) => wrong (.text (Text.quoted (String.ofList cs)))
  | '[' :: _ => wrong .list
  | '\x7b' :: _ => wrong .object
  | c :: s =>
    if c.isDigit then number false (c :: s) >>= fun (n, _) => wrong n.found
    else .error .expectedValue

/-- A number of any form. -/
def anyNumber (expected : String) : Reader Number := fun s =>
  match skipGap s with
  | [] => .error .endsInValue
  | '-' :: s => number true s
  | c :: s => if c.isDigit then number false (c :: s) else mistyped expected (c :: s)

/-- A natural number up to `bound`. -/
def natural (bound : Nat) (expected : String) : Reader Nat := fun s =>
  match anyNumber expected s with
  | .error e => .error e
  | .ok (.natural n, rest) =>
    if n ≤ bound then .ok (n, rest) else .error (.invalidValue (.integer n) expected)
  | .ok (.negative m, _) => .error (.invalidValue (.integer (-m)) expected)
  | .ok (.float x, _) => .error (.invalidType (Number.float x).found expected)

/-- A number read as a float. -/
def float : Reader Float := fun s =>
  match anyNumber "f64" s with
  | .error e => .error e
  | .ok (.natural n, rest) => .ok (n.toUInt64.toFloat, rest)
  | .ok (.negative m, rest) => .ok (-m.toUInt64.toFloat, rest)
  | .ok (.float x, rest) => .ok (x, rest)

/-- A truth value. -/
def bool : Reader Bool := fun s =>
  match skipGap s with
  | [] => .error .endsInValue
  | 't' :: s => (word ['r', 'u', 'e'] s).map fun (_, rest) => (true, rest)
  | 'f' :: s => (word ['a', 'l', 's', 'e'] s).map fun (_, rest) => (false, rest)
  | s => mistyped "a boolean" s

/-- The characters of a string value. -/
def chars (expected : String) : Reader (List Char) := fun s =>
  match skipGap s with
  | [] => .error .endsInValue
  | '"' :: s => string s
  | s => mistyped expected s

/-- A string value. -/
def text : Reader String := fun s =>
  (chars "a string" s).map fun (cs, rest) => (String.ofList cs, rest)

/-- A string value that must be the notation of something. -/
def spelled {α : Type} (decode : List Char → Option α) (expected : String) : Reader α :=
  fun s =>
    match chars expected s with
    | .error e => .error e
    | .ok (cs, rest) =>
      match decode cs with
      | some a => .ok (a, rest)
      | none => .error (.invalidValue (.text (Text.quoted (String.ofList cs))) expected)

/-- The colon behind a name. -/
def colon : Reader Unit := fun s =>
  match skipGap s with
  | [] => .error .endsInObject
  | ':' :: s => .ok ((), s)
  | _ => .error .expectedColon

/-- The empty value of a name that carries nothing. -/
def unit : Reader Unit := fun s =>
  match skipGap s with
  | [] => .error .endsInValue
  | 'n' :: s => word ['u', 'l', 'l'] s
  | s => mistyped "unit" s

/-- One of a fixed list of names. -/
def nameOf {α : Type} (known : List (String × α)) (cs : List Char) : Except Fault α :=
  match known.find? (fun p => p.1.toList == cs) with
  | some p => .ok p.2
  | none => .error (.unknownVariant (String.ofList cs) (known.map Prod.fst))

/-- The only key of an object whose opening was read. -/
def objectKey : Reader (List Char) := fun s =>
  match skipGap s with
  | [] => .error .endsInObject
  | '"' :: s => string s
  | '\x7d' :: _ => .error .expectedValue
  | _ => .error .keyMustBeString

/-- One of a fixed list of names: the name alone, or an object giving it the empty value. -/
def variant {α : Type} (known : List (String × α)) : Reader α := fun s =>
  match skipGap s with
  | [] => .error .endsInValue
  | '"' :: s => do
    let (cs, rest) ← string s
    let a ← nameOf known cs
    .ok (a, rest)
  | '\x7b' :: s => do
    let (cs, s) ← objectKey s
    let a ← nameOf known cs
    let (_, s) ← colon s
    let (_, s) ← unit s
    match skipGap s with
    | [] => .error .endsInObject
    | '\x7d' :: rest => .ok (a, rest)
    | _ => .error .expectedValue
  | _ => .error .expectedValue

end FlowControl.Json
